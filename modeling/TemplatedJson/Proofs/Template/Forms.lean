import TemplatedJson.Proofs.Reading.Exchange
import TemplatedJson.Proofs.Template.Decoding
import TemplatedJson.Proofs.Template.Rule

/-!
# One template in two forms

What stands between the quotes of a string can be put behind an equals sign, or between two
pairs of braces with white space around them.  If it is one span, both are templates with
the same expression, and each character of it has a place in both.
-/

namespace TemplatedJson.Template

variable {body content opening blanks closing moreBlanks told untold decoded undecoded : String}

/-! ### The inside of strings -/

/-- Whether the lexer reads a text between double quotes as a string with some content. -/
def IsBody (body content : String) : Prop :=
  (Lexer.ofText (Quoted.enclosed body)).next.1 =
    .ok ⟨.string content .double, Quoted.enclosed body, 0⟩

theorem isBody_iff : IsBody body content ↔ Quote.double.SpellsAll body.toList content.toList := by
  constructor
  · intro holds
    obtain ⟨_, -, -, lexical, -⟩ := Lexer.exists_of_next (Prod.ext holds rfl) (by simp)
    obtain ⟨inside, quoted, spells⟩ := lexical.spelled
    rw [Quoted.toList_enclosed] at quoted
    rwa [List.append_cancel_right (List.cons.inj quoted).2]
  · intro spells
    have written : Scan.Written (.string content .double) (Quoted.enclosed body).toList := by
      have written := @Scan.Written.string .double _ _ spells
      rw [String.ofList_toList] at written
      rw [Quoted.toList_enclosed]
      exact written
    have read := @Lexer.next_mk_of_written [] _ [] _ blanks_nil written trivial 0
    rw [List.append_nil, List.nil_append, String.ofList_toList] at read
    exact congrArg Prod.fst read

theorem IsBody.append (first : IsBody told decoded) (second : IsBody untold undecoded) :
    IsBody (told ++ untold) (decoded ++ undecoded) := by
  rw [isBody_iff, String.toList_append, String.toList_append]
  exact (isBody_iff.mp first).append (isBody_iff.mp second)

/-- In a string whose content is cut, the index of the cut leads to where the body is cut. -/
theorem IsBody.rawIndex_eq (first : IsBody told decoded) (untold : String) :
    rawIndex (Quoted.enclosed (told ++ untold)) decoded.length = 1 + told.length := by
  have quoted : (Quoted.enclosed (told ++ untold)).toList =
      '\x22' :: (told.toList ++ (untold.toList ++ ['\x22'])) := by
    simp [Quoted.toList_enclosed]
  have place := Template.rawIndex_eq quoted (isBody_iff.mp first)
  rwa [String.length_toList, String.length_toList] at place

end TemplatedJson.Template
