import TemplatedJson.Proofs.Reading.Passes

/-!
# Runs that only the limit on nesting can stop

Where the grammar leaves no choice, a run either goes on as it should or stops
because a tree is too tall.  Such runs are composed step by step, and the
condition under which one may stop is kept along.
-/

namespace TemplatedJson.Parse

variable {Value Image : Type}

/-- What a run yields and where it stops. -/
abbrev Ending (Value : Type) := Except ParseError Value × Cursor

/-- Whether a run ends with the refusal to nest any deeper. -/
def Refused (limit : Nat) (outcome : Ending Value) : Prop :=
  ∃ offset stopped, outcome = (.error ⟨.tooDeeplyNested limit, offset⟩, stopped)

/-- Whether an outcome is the expected one, or else a refusal, which must be
justified. -/
def LeadsTo (justified : Prop) (limit : Nat) (outcome expected : Ending Value) : Prop :=
  outcome = expected ∨ justified ∧ Refused limit outcome

namespace LeadsTo

variable {justified weaker : Prop} {limit : Nat} {cursor middle after : Cursor}

theorem refl (outcome : Ending Value) : LeadsTo justified limit outcome outcome :=
  .inl rfl

theorem of_eq {outcome expected : Ending Value} (same : outcome = expected) :
    LeadsTo justified limit outcome expected :=
  .inl same

theorem trans {first second third : Ending Value}
    (begun : LeadsTo justified limit first second)
    (rest : LeadsTo justified limit second third) : LeadsTo justified limit first third := by
  rcases begun with rfl | refused
  · exact rest
  · exact .inr refused

/-- A refusal may be justified by less. -/
theorem mono {outcome expected : Ending Value} (leads : LeadsTo justified limit outcome expected)
    (implied : justified → weaker) : LeadsTo weaker limit outcome expected :=
  leads.imp_right fun refused => ⟨implied refused.1, refused.2⟩

/-- If the first part of a parser leads to a value, then the whole leads to what
the second part does with it. -/
theorem bind {parser : Parse Value} {next : Value → Parse Image} {value : Value}
    (first : LeadsTo justified limit (runAt parser cursor) (.ok value, middle)) :
    LeadsTo justified limit (runAt (parser >>= next) cursor) (runAt (next value) middle) := by
  rcases first with yields | ⟨reason, offset, stopped, refused⟩
  · exact .inl (runAt_bind_of_ok yields)
  · exact .inr ⟨reason, offset, stopped, runAt_bind_of_error refused⟩

/-- A level deeper, a parser leads to the same value. -/
theorem deeper {body : Parse Value} {value : Value}
    (inside : LeadsTo justified limit (runAt body { cursor with depth := cursor.depth + 1 })
      (.ok value, { after with depth := after.depth + 1 })) :
    LeadsTo justified limit (runAt (deeper body) cursor) (.ok value, after) := by
  unfold Parse.deeper
  rw [runAt_modify_bind]
  exact inside.bind

end LeadsTo

/-! ### Items between commas -/

/-- Reading items one after another leads to the given values.  A comma follows
every item but the last one. -/
inductive Offers (justified : Prop) (limit : Nat) (item : Parse Value) :
    Cursor → List Value → Cursor → Prop where
  | last {cursor after : Cursor} {value : Value} :
      LeadsTo justified limit (runAt item cursor) (.ok value, after) →
        after.current.kind ≠ .symbol .comma → Offers justified limit item cursor [value] after
  | comma {cursor middle next after : Cursor} {value : Value} {values : List Value} :
      LeadsTo justified limit (runAt item cursor) (.ok value, middle) →
        middle.current.kind = .symbol .comma → middle.following? = some next →
          Offers justified limit item next values after →
            Offers justified limit item cursor (value :: values) after

variable {justified weaker : Prop} {limit : Nat} {cursor after : Cursor} {item : Parse Value}
  {values : List Value}

theorem Offers.mono (offers : Offers justified limit item cursor values after)
    (implied : justified → weaker) : Offers weaker limit item cursor values after := by
  induction offers with
  | last leads notComma => exact .last (leads.mono implied) notComma
  | comma leads atComma moved _ ih => exact .comma (leads.mono implied) atComma moved ih

theorem Offers.length_pos (offers : Offers justified limit item cursor values after) :
    0 < values.length := by
  cases offers <;> simp

theorem Offers.commaSeparated {more : Nat}
    (offers : Offers justified limit item cursor values after) (enough : values.length ≤ more + 1) :
    LeadsTo justified limit (runAt (commaSeparated item more) cursor) (.ok values, after) := by
  induction offers generalizing more with
  | @last cursor after value leads notComma =>
      cases more with
      | zero => exact leads.bind
      | succ more =>
          unfold Parse.commaSeparated
          refine leads.bind.trans (.of_eq ?_)
          simp [notComma]
  | @comma cursor middle next after value values leads atComma moved later ih =>
      cases more with
      | zero =>
          cases later <;> simp at enough
      | succ more =>
          unfold Parse.commaSeparated
          refine leads.bind.trans ?_
          simp only [runAt_isAt_bind, atComma, decide_true, if_true]
          rw [runAt_bind_of_ok (runAt_discard_advance moved)]
          exact (ih (by simpa using enough)).bind

/-- A list leads to its items once the closing symbol follows them. -/
theorem Offers.listUntil {closing : Symbol} {final : Cursor}
    (offers : Offers justified limit item cursor values after)
    (unclosed : cursor.current.kind ≠ .symbol closing)
    (enough : values.length ≤ cursor.remaining + 1)
    (closed : after.current.kind = .symbol closing) (known : after.following? = some final) :
    LeadsTo justified limit (runAt (listUntil closing item) cursor) (.ok values, final) := by
  unfold Parse.listUntil
  simp only [runAt_isAt_bind, unclosed, decide_false, Bool.false_eq_true, if_false, runAt_get_bind]
  refine (offers.commaSeparated enough).bind.trans (.of_eq ?_)
  rw [runAt_bind_of_ok (runAt_expect closed known), runAt_pure]

end TemplatedJson.Parse
