import TemplatedJson.Proofs.Reading.Ensures
import TemplatedJson.Proofs.Reading.Refusal
import TemplatedJson.Proofs.Session.Family

/-!
# Parts of a run

A run that comes to a place where a part of it begins carries that part: it fails as
the part does, and where it succeeds the part did, and its value holds that of the
part.  This is so for an item among items between commas, after all items before it
were read.
-/

namespace TemplatedJson

namespace Parse

variable {Value Image Part : Type} {cursor middle : Cursor}

/-- Whether a run fails as a part of it does, and yields only what holds the value of
the part. -/
def Carries (holds : Value → Part → Prop) (whole : Ending Value) (part : Ending Part) : Prop :=
  (∀ error stopped, part = (.error error, stopped) → whole = (.error error, stopped)) ∧
    ∀ value after, whole = (.ok value, after) →
      ∃ inner stopped, part = (.ok inner, stopped) ∧ holds value inner

namespace Carries

variable {parser : Parse Value} {next : Value → Parse Image} {part : Ending Part}
  {holds : Value → Part → Prop} {after : Image → Part → Prop}

theorem refl (whole : Ending Value) : Carries Eq whole whole :=
  ⟨fun _ _ failed => failed, fun value stopped read => ⟨value, stopped, read, rfl⟩⟩

theorem trans {Inner : Type} {inner : Ending Inner} {within : Part → Inner → Prop}
    {through : Value → Inner → Prop} {whole : Ending Value} (outer : Carries holds whole part)
    (inside : Carries within part inner)
    (joins : ∀ {value part inner}, holds value part → within part inner → through value inner) :
    Carries through whole inner := by
  constructor
  · intro error stopped failed
    exact outer.1 error stopped (inside.1 error stopped failed)
  · intro value stopped read
    obtain ⟨middle, middleStopped, readMiddle, held⟩ := outer.2 value stopped read
    obtain ⟨last, lastStopped, readLast, heldLast⟩ := inside.2 middle middleStopped readMiddle
    exact ⟨last, lastStopped, readLast, joins held heldLast⟩

/-- What the first of two parsers carries, both of them carry. -/
theorem bind (first : Carries holds (runAt parser cursor) part)
    (rest : ∀ {value inner}, holds value inner → Ensures (next value) fun image => after image inner) :
    Carries after (runAt (parser >>= next) cursor) part := by
  constructor
  · intro error stopped failed
    exact runAt_bind_of_error (first.1 error stopped failed)
  · intro image stopped read
    obtain ⟨value, middle, begun, ended⟩ := runAt_bind_eq_ok.mp read
    obtain ⟨inner, innerStopped, readInner, held⟩ := first.2 value middle begun
    exact ⟨inner, innerStopped, readInner, rest held ended⟩

/-- What the second of two parsers carries, both of them carry. -/
theorem of_ok {value : Value} (first : runAt parser cursor = (.ok value, middle))
    (second : Carries after (runAt (next value) middle) part) :
    Carries after (runAt (parser >>= next) cursor) part := by
  rwa [runAt_bind_of_ok first]

theorem deeper (inside : Carries holds (runAt parser { cursor with depth := cursor.depth + 1 }) part) :
    Carries holds (runAt (deeper parser) cursor) part := by
  unfold Parse.deeper
  rw [runAt_modify_bind]
  apply inside.bind
  intro value inner held first image last read
  rw [runAt_modify_bind] at read
  obtain ⟨rfl, -⟩ := runAt_pure_eq_ok.mp read
  exact held

end Carries

/-! ### Items between commas -/

/-- Reading items one after another comes to the item of an index. -/
inductive ItemAt (item : Parse Value) : Cursor → (index : Nat) → Cursor → Prop where
  | first (cursor : Cursor) : ItemAt item cursor 0 cursor
  | next {cursor middle following target : Cursor} {value : Value} {index : Nat} :
      runAt item cursor = (.ok value, middle) → middle.current.kind = .symbol .comma →
        middle.following? = some following → ItemAt item following index target →
          ItemAt item cursor (index + 1) target

variable {item : Parse Value} {target : Cursor} {index : Nat}

theorem ItemAt.carries (reaches : ItemAt item cursor index target) {more : Nat}
    (enough : index ≤ more) :
    Carries (fun values value => values[index]? = some value)
      (runAt (commaSeparated item more) cursor) (runAt item target) := by
  induction reaches generalizing more with
  | first cursor =>
      cases more with
      | zero =>
          apply (Carries.refl _).bind
          rintro value _ rfl
          exact .pure rfl
      | succ more =>
          apply (Carries.refl _).bind
          rintro value _ rfl
          refine .bind fun separated => .ite (fun _ => ?_) fun _ => .pure rfl
          exact .bind fun _ => .bind fun _ => .pure rfl
  | @next cursor middle following target value index read atComma known _ ih =>
      cases more with
      | zero => cases enough
      | succ more =>
          apply Carries.of_ok read
          rw [runAt_isAt_bind, atComma]
          refine .of_ok (runAt_discard_advance known) ?_
          apply (ih (Nat.le_of_succ_le_succ enough)).bind
          intro values part held
          exact .pure held

/-- Every item that was read was come to. -/
theorem Separated.exists_itemAt {values : List Value} {after : Cursor} {value : Value}
    (separated : Separated item cursor values after) (found : values[index]? = some value) :
    ∃ target stopped, ItemAt item cursor index target ∧
      runAt item target = (.ok value, stopped) := by
  induction separated generalizing index with
  | @last cursor after only read =>
      cases index with
      | zero =>
          obtain rfl := Option.some.inj found
          exact ⟨cursor, after, .first cursor, read⟩
      | succ index => simp at found
  | @comma cursor middle following after first others read atComma known _ ih =>
      cases index with
      | zero =>
          obtain rfl := Option.some.inj found
          exact ⟨cursor, middle, .first cursor, read⟩
      | succ index =>
          obtain ⟨target, stopped, reaches, readTarget⟩ := ih (by simpa using found)
          exact ⟨target, stopped, .next read atComma known reaches, readTarget⟩

/-- Where an item begins is related to where the first one does. -/
theorem ItemAt.leads (motion : Motion) (governs : motion.Governs item)
    (reaches : ItemAt item cursor index target) :
    motion.leads cursor target ∧ target.depth = cursor.depth := by
  induction reaches with
  | first cursor => exact ⟨motion.refl cursor, rfl⟩
  | next read _ known _ ih =>
      obtain ⟨leads, -, restored⟩ := governs read
      have stepped := (Cursor.following?_frame known).1
      refine ⟨motion.trans leads (motion.trans (motion.follow known) ih.1), ?_⟩
      exact ih.2.trans (stepped.trans (restored _ rfl))

end Parse

/-! ### The tokens that are left -/

namespace Cursor

variable {cursor after : Cursor}

/-- How many tokens are left at most, the mark at the end of the text left out. -/
def left (cursor : Cursor) : Nat :=
  if cursor.current.kind = .endOfInput then cursor.remaining - 1 else cursor.remaining

theorem left_le_remaining (cursor : Cursor) : cursor.left ≤ cursor.remaining := by
  unfold left
  split <;> omega

/-- Stepping over a token leaves fewer of them, unless the text has ended. -/
theorem left_following? (known : cursor.following? = some after) :
    after.left ≤ cursor.left ∧ (cursor.current.kind ≠ .endOfInput → after.left < cursor.left) := by
  obtain ⟨fewer, strictlyFewer⟩ := remaining_following? known
  have positive : 0 < after.remaining := Nat.succ_pos _
  unfold left
  by_cases afterEnded : after.current.kind = .endOfInput
  · by_cases ended : cursor.current.kind = .endOfInput
    · simp only [afterEnded, ended, if_true, ne_eq, not_true, false_implies, and_true]
      omega
    · simp only [afterEnded, ended, if_true, if_false, ne_eq, not_false_eq_true, true_implies]
      omega
  · have strict := strictlyFewer afterEnded
    by_cases ended : cursor.current.kind = .endOfInput
    · simp only [afterEnded, ended, if_true, if_false, ne_eq, not_true, false_implies, and_true]
      omega
    · simp only [afterEnded, ended, if_false, ne_eq, not_false_eq_true, true_implies]
      omega

end Cursor

namespace Parse

/-- No step leaves more tokens than there were. -/
def Motion.shrinks : Motion where
  leads cursor after := after.left ≤ cursor.left
  refl _ := Nat.le_refl _
  trans first second := Nat.le_trans second first
  frame _ _ _ := Nat.le_refl _
  follow known := (Cursor.left_following? known).1
  lose := by
    intro cursor error upcoming answered
    have shorter : upcoming.pending.length ≤ cursor.upcoming.pending.length := by
      cases pending : cursor.upcoming.pending with
      | nil =>
          rw [TokenStream.next_of_nil pending, Prod.mk.injEq] at answered
          simp [← answered.2, pending]
      | cons answer rest =>
          have popped : upcoming.pending = rest := by
            have next := (TokenStream.next_of_cons pending).2.1
            rwa [answered] at next
          simp [popped]
    unfold Cursor.left Cursor.remaining
    dsimp only
    split <;> omega

variable {Value : Type} {item : Parse Value} {cursor target : Cursor} {index : Nat}

/-- There are no more items than tokens, since a comma comes between any two. -/
theorem ItemAt.index_le (governs : Motion.shrinks.Governs item)
    (reaches : ItemAt item cursor index target) : index + target.left ≤ cursor.left := by
  induction reaches with
  | first cursor => omega
  | @next cursor middle following target value index read atComma known _ ih =>
      have begun : middle.left ≤ cursor.left := (governs read).1
      have stepped := (Cursor.left_following? known).2 (by simp [atComma])
      omega

/-- An item in brackets is a part of the run that reads them all. -/
theorem ItemAt.carries_bracketed {Node : Type} {opening closing : Symbol} {first : Cursor}
    (wrap : List Value → Node) (governs : Motion.shrinks.Governs item)
    (opens : cursor.current.kind = .symbol opening) (known : cursor.following? = some first)
    (unclosed : first.current.kind ≠ .symbol closing)
    (reaches : ItemAt item first index target) :
    Carries (fun node value => ∃ values, node = wrap values ∧ values[index]? = some value)
      (runAt (do expect opening; return wrap (← listUntil closing item)) cursor)
      (runAt item target) := by
  have enough : index ≤ first.remaining := by
    have fewer := reaches.index_le governs
    have bound := first.left_le_remaining
    omega
  have listed : Carries (fun values value => values[index]? = some value)
      (runAt (listUntil closing item) first) (runAt item target) := by
    unfold listUntil
    rw [runAt_isAt_bind]
    simp only [unclosed, decide_false, Bool.false_eq_true, if_false]
    rw [runAt_get_bind]
    apply (reaches.carries enough).bind
    intro values value held
    exact .bind fun _ => .pure held
  apply Carries.of_ok (runAt_expect opens known)
  apply listed.bind
  intro values value held
  exact .pure ⟨values, rfl, held⟩

/-- Every item in brackets was come to, behind the opening one. -/
theorem exists_itemAt_of_bracketed {Node : Type} {opening closing : Symbol} {after : Cursor}
    {wrap : List Value → Node} {node : Node}
    (run : runAt (do expect opening; return wrap (← listUntil closing item)) cursor =
      (.ok node, after)) :
    ∃ first values, cursor.following? = some first ∧ node = wrap values ∧
      ∀ {index value}, values[index]? = some value →
        first.current.kind ≠ .symbol closing ∧ ∃ target stopped,
          ItemAt item first index target ∧ runAt item target = (.ok value, stopped) := by
  obtain ⟨_, first, opened, rest⟩ := runAt_bind_eq_ok.mp run
  obtain ⟨-, known⟩ := runAt_expect_eq_ok.mp opened
  obtain ⟨values, listed, rfl⟩ := runAt_bind_pure_eq_ok.mp rest
  refine ⟨first, values, known, rfl, ?_⟩
  intro index value found
  rcases listUntil_eq_ok listed with ⟨rfl, -, -⟩ | ⟨unclosed, middle, separated, -, -⟩
  · cases found
  · exact ⟨unclosed, separated.exists_itemAt found⟩

end Parse

end TemplatedJson
