import TemplatedJson.Proofs.Document.Witness
import TemplatedJson.Proofs.Machine.Expression

/-!
# Values pay for themselves

A container pays for its level with its opening symbol.  An expression in a string is read
by a parser of its own, whose tokens stand in the content of the string.  There is room for
them as long as the whole text fits into a machine word once more.
-/

namespace TemplatedJson

namespace Parse

variable {Image : Type} {account : Account} {cursor : Cursor} {held : Nat} {image : Image → Nat}

/-- An expression in a string is read as if there were no bounds on numbers. -/
theorem machine_parseInside_eq {machine : Machine} {depth : Nat} {source : String}
    (fits : depth + source.length + 1 ≤ machine.greatest) (maximum : Nat) :
    machine.parseInside maximum depth source = Expr.parseInside maximum depth source := by
  unfold Machine.parseInside Expr.parseInside
  cases located : Cursor.ofText source depth with
  | error error => rfl
  | ok cursor =>
      let account : Account :=
        ⟨machine, depth, machine.greatest, LexerAnswer.Concerns source.toList, Nat.le_refl _⟩
      have pays := @pays_completeExpression account ⟨maximum, depth⟩ (Nat.le_refl depth) cursor
      obtain ⟨stands, inside, -⟩ := Cursor.ofText_eq_ok_iff.mp located
      have tokens := Cursor.StandsAt.tokensLeft_le stands
      have length : (Lexer.ofText source).rest.length = source.length := String.length_toList
      obtain ⟨same, -⟩ := pays (Cursor.sees_of_ofText located) (Nat.le_of_eq inside.symm)
        (by dsimp only [account]; omega)
      exact congrArg Prod.fst same

/-! ### Values without containers -/

section Texts

variable {text : String}
  (standing : ∀ token, account.holds (.ok token) → token.StandsIn text.toList)
  (spacious : account.room + text.length ≤ account.machine.greatest)

theorem pays_jsonString_bind {next otherNext : String × Token → Parse Image}
    (rest : ∀ content token, token.kind = .string content .double → account.holds (.ok token) →
      Pays account held image (next (content, token)) (otherNext (content, token))) :
    Pays account held image (jsonString >>= next) (jsonString >>= otherNext) := by
  intro cursor sees counted fits
  unfold jsonString
  simp only [bind_assoc]
  rw [runAt_get_bind, runAt_get_bind]
  cases kind : cursor.current.kind with
  | string content quote =>
      cases quote with
      | double =>
          dsimp only
          rw [bind_assoc, bind_assoc]
          have passed := pays_discard_advance.bind fun _ : Unit =>
            rest content cursor.current kind sees.1
          exact passed cursor sees counted fits
      | single | back => exact PaysAt.fail _ sees counted fits
  | _ => exact PaysAt.fail _ sees counted fits

theorem pays_jsonNumber (sign digits : String) (offset : Nat) :
    Pays account held (fun _ => held) (jsonNumber sign digits offset)
      (jsonNumber sign digits offset) := by
  unfold jsonNumber
  split
  · split
    · exact pays_throw _
    · exact pays_pure (Nat.le_refl _)
  · exact pays_throw _

include standing spacious

theorem pays_negativeNumber :
    Pays account 1 (fun _ => 1) account.machine.negativeNumber negativeNumber := by
  refine pays_advance_bind fun minus known cursor => ?_
  have stop := (standing minus known).stop_le
  rw [Token.stop, String.length_toList] at stop
  rw [runAt_get_bind, runAt_get_bind, add_eq (by omega), pure_bind]
  have digits : Pays account (1 + minus.worth) (fun _ => 1)
      (discard advance >>= fun _ => jsonNumber minus.raw cursor.current.raw minus.offset)
      (discard advance >>= fun _ => jsonNumber minus.raw cursor.current.raw minus.offset) :=
    pays_discard_advance.bind fun _ => (pays_jsonNumber _ _ _).weaken (Nat.le_refl _)
      fun _ => by omega
  exact Pays.ite digits (pays_unexpected _) cursor

theorem pays_stringValue (maximum : Nat) {content : String} {token : Token}
    (kind : token.kind = .string content .double) (known : account.holds (.ok token)) :
    Pays account 1 (fun _ => 1) (account.machine.stringValue maximum content token)
      (stringValue maximum content token) := by
  have stands := standing token known
  unfold Machine.stringValue stringValue
  cases found : Template.detect? content with
  | none => exact pays_pure (Nat.le_refl _)
  | some embedded =>
      obtain ⟨-, -, -, inContent⟩ := Template.exists_drop_of_detect? found (Nat.le_refl _)
      have contentFits := stands.length_content_le kind
      have stop := stands.stop_le
      rw [Token.stop, String.length_toList] at stop
      refine pays_sight_bind _ fun cursor sees counted fits => ?_
      rw [runAt_get_bind, runAt_get_bind, machine_parseInside_eq (by omega)]
      cases failed : Expr.parseInside maximum cursor.depth embedded.source with
      | ok expr => exact PaysAt.pure (Nat.le_refl _) sees counted fits
      | error error =>
          have inSource := (Expr.isOf_of_parseInside failed).inText
          have place := Template.rawIndex_le token.raw (embedded.start + error.offset)
          dsimp only
          rw [add_eq (by omega), pure_bind]
          unfold Machine.rawIndex
          rw [Template.rawIndex?_eq, pure_bind, add_eq (by omega), pure_bind]
          exact PaysAt.fail _ sees counted fits

/-! ### Containers and requests -/

theorem pays_value (maximum : Nat) {objects arrays otherObjects otherArrays : Parse Node}
    (readsObjects : Pays account 1 (fun _ => 1) objects otherObjects)
    (readsArrays : Pays account 1 (fun _ => 1) arrays otherArrays) :
    Pays account 1 (fun _ => 1) (account.machine.value maximum objects arrays)
      (value maximum otherObjects otherArrays) := by
  have word : ∀ node : Node, Pays account 1 (fun _ => 1)
      (discard advance >>= fun _ => pure node) (discard advance >>= fun _ => pure node) :=
    fun node => pays_discard_advance.bind fun _ => pays_pure (Nat.le_refl _)
  intro cursor
  unfold Machine.value value
  rw [runAt_get_bind, runAt_get_bind]
  dsimp only
  cases cursor.current.kind with
  | symbol symbol =>
      cases symbol with
      | leftBrace => exact readsObjects cursor
      | leftBracket => exact readsArrays cursor
      | minus => exact pays_negativeNumber standing spacious cursor
      | _ => exact .fail _
  | string content quote =>
      refine pays_jsonString_bind (fun content token kind known => ?_) cursor
      exact pays_stringValue standing spacious maximum kind known
  | number => exact (pays_discard_advance.bind fun _ => pays_jsonNumber _ _ _) cursor
  | boolean value => exact word _ cursor
  | null => exact Pays.ite (word _) (pays_unexpected _) cursor
  | _ => exact .fail _

omit standing spacious

theorem pays_member {checked reader : Parse Node}
    (reads : Pays account 1 (fun _ => 1) checked reader) :
    Pays account 1 (fun _ => 1) (member checked) (member reader) := by
  refine pays_jsonString_bind fun key token _ _ => (pays_expect .colon).bind fun _ => ?_
  exact (reads.weaken (Nat.le_succ 1) fun _ => Nat.le_succ _).bind fun _ =>
    pays_pure (Nat.le_refl _)

/-- The opening symbol of a container pays for the levels in it. -/
theorem pays_container {Item : Type} {checked reader : Parse Item} (opening closing : Symbol)
    (wrap : List Item → Node) (reads : Pays account 1 (fun _ => 1) checked reader) :
    Pays account 0 (fun _ => 0)
      (expect opening >>= fun _ => listUntil closing checked >>= fun items => pure (wrap items))
      (expect opening >>= fun _ => listUntil closing reader >>= fun items => pure (wrap items)) :=
  (pays_expect opening).bind fun _ =>
    (@pays_listUntil account Item (fun _ => 0) _ _ reads closing).bind fun _ =>
      pays_pure (Nat.zero_le _)

include standing spacious

theorem pays_valueWithin (maximum levels : Nat) :
    Pays account 1 (fun _ => 1) (account.machine.valueWithin maximum levels)
      (valueWithin maximum levels) := by
  induction levels with
  | zero =>
      have stops : Pays account 0 (fun _ : Node => 0) (tooDeep maximum) (tooDeep maximum) :=
        pays_tooDeep maximum
      have refuses := pays_deeper stops
      exact pays_value standing spacious maximum refuses refuses
  | succ levels ih =>
      exact pays_value standing spacious maximum
        (pays_deeper (pays_container .leftBrace .rightBrace Node.object (pays_member ih)))
        (pays_deeper (pays_container .leftBracket .rightBracket Node.array ih))

theorem pays_completeValue (maximum : Nat) :
    Pays account 1 (fun _ => 1) (account.machine.completeValue maximum)
      (completeValue maximum) := by
  intro cursor
  unfold Machine.completeValue completeValue
  rw [runAt_get_bind, runAt_get_bind]
  refine (pays_valueWithin standing spacious maximum _).bind (fun node => ?_) cursor
  exact pays_expectEnd.bind fun _ => pays_pure (Nat.le_refl _)

end Texts

end Parse

end TemplatedJson
