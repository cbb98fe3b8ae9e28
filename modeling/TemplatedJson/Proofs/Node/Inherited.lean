import TemplatedJson.Proofs.Node.Recognition
import TemplatedJson.Proofs.Session.Family

/-!
# Properties that values get from their parts

A property is inherited when literals have it, templates get it from the expressions
that they were read from, and containers get it from their values.  Every value that
is read has such a property, wherever the parser began and whatever failed before.
The number of levels that are left may be part of the property.
-/

namespace TemplatedJson

/-- Whether values get a property from their parts.  A template is read inside of
`depth` containers, which leave the given levels at most. -/
structure Node.Inherited (maximum : Nat) (holds : (levels : Nat) → Node → Prop) : Prop where
  literal : ∀ levels leaf, holds levels (.literal leaf)
  template : ∀ {levels depth text tree}, maximum ≤ depth + levels →
    Expr.parseInside maximum depth text = .ok tree → holds levels (.template tree)
  object : ∀ {levels members}, (∀ member ∈ members, holds levels member.value) →
    holds (levels + 1) (.object members)
  array : ∀ {levels elements}, (∀ element ∈ elements, holds levels element) →
    holds (levels + 1) (.array elements)

namespace Parse

variable {Item : Type} {item : Parse Item} {maximum levels depth : Nat} {cursor after : Cursor}

/-- What every success of a parser inside of `depth` containers yields. -/
def EnsuresAt {Value : Type} (depth : Nat) (parser : Parse Value) (holds : Value → Prop) : Prop :=
  ∀ ⦃cursor value after⦄, cursor.depth = depth → runAt parser cursor = (.ok value, after) →
    holds value

/-- Items that were read one after another all have the property, since each of
them restores the depth. -/
theorem forall_of_separated {holds : Item → Prop} (ensures : EnsuresAt depth item holds)
    (governs : Motion.anywhere.Governs item) {values : List Item}
    (separated : Separated item cursor values after) (sameDepth : cursor.depth = depth) :
    ∀ value ∈ values, holds value := by
  induction separated with
  | last read => simpa using ensures sameDepth read
  | comma read _ moved _ ih =>
      have restored := (governs read).2.2 _ rfl
      have followed := (Cursor.following?_frame moved).1
      exact List.forall_mem_cons.mpr
        ⟨ensures sameDepth read, ih (followed.trans (restored.trans sameDepth))⟩

theorem EnsuresAt.listUntil {holds : Item → Prop} (ensures : EnsuresAt depth item holds)
    (governs : Motion.anywhere.Governs item) (closing : Symbol) :
    EnsuresAt depth (listUntil closing item) fun values => ∀ value ∈ values, holds value := by
  intro cursor values after sameDepth run
  rcases listUntil_eq_ok run with ⟨rfl, -, -⟩ | ⟨-, middle, separated, -, -⟩
  · simp
  · exact forall_of_separated ensures governs separated sameDepth

theorem EnsuresAt.bracketed {holds : Item → Prop} (ensures : EnsuresAt depth item holds)
    (governs : Motion.anywhere.Governs item) (opening closing : Symbol) {wrap : List Item → Node}
    {whole : Node → Prop} (wraps : ∀ {values}, (∀ value ∈ values, holds value) →
      whole (wrap values)) :
    EnsuresAt depth (do expect opening; return wrap (← Parse.listUntil closing item)) whole := by
  intro cursor node after sameDepth run
  obtain ⟨_, middle, opened, rest⟩ := runAt_bind_eq_ok.mp run
  obtain ⟨-, known⟩ := runAt_expect_eq_ok.mp opened
  obtain ⟨values, listed, rfl⟩ := runAt_bind_pure_eq_ok.mp rest
  have followed := (Cursor.following?_frame known).1
  exact wraps (ensures.listUntil governs closing (followed.trans sameDepth) listed)

theorem EnsuresAt.deeper {Value : Type} {parser : Parse Value} {holds : Value → Prop}
    (ensures : EnsuresAt (depth + 1) parser holds) : EnsuresAt depth (deeper parser) holds := by
  intro cursor value after sameDepth run
  obtain ⟨middle, inside, -⟩ := runAt_deeper_eq_ok.mp run
  exact ensures (congrArg (· + 1) sameDepth) inside

theorem EnsuresAt.tooDeep {Value : Type} {holds : Value → Prop} :
    EnsuresAt depth (Parse.deeper (Parse.tooDeep maximum)) holds := by
  intro cursor value after _ run
  obtain ⟨middle, inside, -⟩ := runAt_deeper_eq_ok.mp run
  cases inside

theorem EnsuresAt.member {reader : Parse Node} {holds : Node → Prop}
    (ensures : EnsuresAt depth reader holds) :
    EnsuresAt depth (member reader) fun member => holds member.value := by
  intro cursor found after sameDepth run
  obtain ⟨divider, item, -, passedName, -, passedColon, read⟩ := JsonText.member_eq_ok run
  have afterName := (Cursor.following?_frame passedName).1
  have afterColon := (Cursor.following?_frame passedColon).1
  exact ensures (afterColon.trans (afterName.trans sameDepth)) read

end Parse

namespace Node.Inherited

open Parse

variable {maximum levels depth : Nat} {holds : Nat → Node → Prop}

/-- A value that is read has the property if objects and arrays have it. -/
theorem value (inherited : Inherited maximum holds) (room : maximum ≤ depth + levels)
    {objects arrays : Parse Node} (ensuresObjects : EnsuresAt depth objects (holds levels))
    (ensuresArrays : EnsuresAt depth arrays (holds levels)) :
    EnsuresAt depth (Parse.value maximum objects arrays) (holds levels) := by
  intro cursor node after sameDepth run
  rcases JsonText.value_eq_ok run with
    ⟨-, object⟩ | ⟨-, array⟩ | ⟨leaf, rfl⟩ | ⟨text, tree, parsed, rfl⟩
  · exact ensuresObjects sameDepth object
  · exact ensuresArrays sameDepth array
  · exact inherited.literal levels leaf
  · rw [sameDepth] at parsed
    exact inherited.template room parsed

/-- Every value that is read has the property. -/
theorem valueWithin (inherited : Inherited maximum holds) (room : maximum ≤ depth + levels) :
    EnsuresAt depth (Parse.valueWithin maximum levels) (holds levels) := by
  induction levels generalizing depth with
  | zero => exact inherited.value room .tooDeep .tooDeep
  | succ levels ih =>
      have inside := @ih (depth + 1) (by omega)
      have governs := Motion.anywhere.family.valueWithin maximum levels
      have governsMember := Motion.anywhere.family.member maximum levels
      refine inherited.value room (.deeper ?_) (.deeper ?_)
      · exact inside.member.bracketed governsMember .leftBrace .rightBrace inherited.object
      · exact inside.bracketed governs .leftBracket .rightBracket inherited.array

theorem completeValue (inherited : Inherited maximum holds) {cursor after : Cursor} {node : Node}
    (run : runAt (Parse.completeValue maximum) cursor = (.ok node, after)) :
    holds (maximum - cursor.depth) node := by
  unfold Parse.completeValue at run
  rw [runAt_get_bind] at run
  obtain ⟨found, middle, read, rest⟩ := runAt_bind_eq_ok.mp run
  obtain ⟨_, -, rfl⟩ := runAt_bind_pure_eq_ok.mp rest
  exact inherited.valueWithin (by omega) rfl read

end Node.Inherited

namespace Node

/-! ### Nesting -/

theorem nestingOfMembers_le {levels : Nat} {members : List (Member Node)}
    (low : ∀ member ∈ members, member.value.nesting ≤ levels) :
    nestingOfMembers members ≤ levels := by
  induction members with
  | nil => exact Nat.zero_le _
  | cons first rest ih =>
      obtain ⟨lowFirst, lowRest⟩ := List.forall_mem_cons.mp low
      exact Nat.max_le.mpr ⟨lowFirst, ih lowRest⟩

theorem nestingOfElements_le {levels : Nat} {elements : List Node}
    (low : ∀ element ∈ elements, element.nesting ≤ levels) :
    nestingOfElements elements ≤ levels := by
  induction elements with
  | nil => exact Nat.zero_le _
  | cons first rest ih =>
      obtain ⟨lowFirst, lowRest⟩ := List.forall_mem_cons.mp low
      exact Nat.max_le.mpr ⟨lowFirst, ih lowRest⟩

/-- No value nests deeper than the levels that were left for it. -/
theorem inherited_nesting (maximum : Nat) :
    Inherited maximum fun levels node => node.nesting ≤ levels where
  literal _ _ := Nat.zero_le _
  template room parsed := by
    have fits := (Expr.parseInside_eq_ok_iff.mp parsed).2
    simp only [nesting]
    omega
  object low := by
    have most := nestingOfMembers_le low
    simp only [nesting]
    omega
  array low := by
    have most := nestingOfElements_le low
    simp only [nesting]
    omega

end Node

end TemplatedJson
