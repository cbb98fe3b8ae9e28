import TemplatedJson.Proofs.Node.Completeness
import TemplatedJson.Proofs.Node.Soundness
import TemplatedJson.Proofs.Reading.Parts

/-!
# The values inside a value

A value is inside of containers, and the index of each of them in the one around it
gives a path.  The parser comes to a value along its path after it has read all that
stands before.  From there on the value decides: if it cannot be read, nothing
around it is read either, and otherwise it is what the whole value holds at that
path.
-/

namespace TemplatedJson

namespace Node

/-- The values that stand directly in a value. -/
def children : Node → List Node
  | object members => members.map Member.value
  | array elements => elements
  | literal _ | template _ => []

/-- The value at a path, the outermost index first. -/
def at? : (path : List Nat) → Node → Option Node
  | [], node => some node
  | index :: path, node => node.children[index]?.bind (at? path)

end Node

namespace Parse

/-- Reading a value comes to the value at a path, with the given levels left before
the outermost container. -/
inductive Visits (maximum : Nat) :
    (levels : Nat) → Cursor → (path : List Nat) → Cursor → Prop where
  | here (levels : Nat) (cursor : Cursor) : Visits maximum levels cursor [] cursor
  | element {levels index : Nat} {cursor first item target : Cursor} {path : List Nat} :
      cursor.current.kind = .symbol .leftBracket →
        Cursor.following? { cursor with depth := cursor.depth + 1 } = some first →
        first.current.kind ≠ .symbol .rightBracket →
        ItemAt (valueWithin maximum levels) first index item →
        Visits maximum levels item path target →
          Visits maximum (levels + 1) cursor (index :: path) target
  | member {levels index : Nat} {cursor first named divider item target : Cursor}
      {path : List Nat} {key : String} :
      cursor.current.kind = .symbol .leftBrace →
        Cursor.following? { cursor with depth := cursor.depth + 1 } = some first →
        first.current.kind ≠ .symbol .rightBrace →
        ItemAt (member (valueWithin maximum levels)) first index named →
        named.current.kind = .string key .double → named.following? = some divider →
        divider.current.kind = .symbol .colon → divider.following? = some item →
        Visits maximum levels item path target →
          Visits maximum (levels + 1) cursor (index :: path) target

variable {maximum levels : Nat} {cursor target : Cursor} {path : List Nat}

/-! ### Containers -/

theorem runAt_valueWithin_of_leftBracket (kind : cursor.current.kind = .symbol .leftBracket) :
    runAt (valueWithin maximum (levels + 1)) cursor =
      runAt (deeper (array (valueWithin maximum levels))) cursor := by
  rw [valueWithin]
  simp only [value, runAt_get_bind, kind]

theorem runAt_valueWithin_of_leftBrace (kind : cursor.current.kind = .symbol .leftBrace) :
    runAt (valueWithin maximum (levels + 1)) cursor =
      runAt (deeper (object (valueWithin maximum levels))) cursor := by
  rw [valueWithin]
  simp only [value, runAt_get_bind, kind]

/-- A value is a part of the member that it belongs to. -/
theorem carries_member {reader : Parse Node} {divider item : Cursor} {key : String}
    (named : cursor.current.kind = .string key .double) (passedName : cursor.following? = some divider)
    (divides : divider.current.kind = .symbol .colon) (passedColon : divider.following? = some item) :
    Carries (fun member node => member.value = node) (runAt (member reader) cursor)
      (runAt reader item) := by
  unfold Parse.member
  apply Carries.of_ok (JsonText.runAt_jsonString named passedName)
  apply Carries.of_ok (runAt_expect divides passedColon)
  apply (Carries.refl _).bind
  rintro node _ rfl
  exact .pure rfl

/-- The value that is come to is a part of the whole value. -/
theorem Visits.carries (visits : Visits maximum levels cursor path target) :
    Carries (fun whole part => whole.at? path = some part)
      (runAt (valueWithin maximum levels) cursor)
      (runAt (valueWithin maximum (levels - path.length)) target) := by
  induction visits with
  | here levels cursor => exact ⟨(Carries.refl _).1, fun node after read => ⟨node, after, read, rfl⟩⟩
  | @element levels index cursor first item target path kind known unclosed reaches _ ih =>
      rw [runAt_valueWithin_of_leftBracket kind, List.length_cons, Nat.add_sub_add_right]
      let inside : Cursor := { cursor with depth := cursor.depth + 1 }
      have opens : inside.current.kind = .symbol .leftBracket := kind
      have listed := reaches.carries_bracketed Node.array (Motion.shrinks.family.valueWithin maximum levels)
        opens known unclosed
      refine Carries.deeper (listed.trans ih ?_)
      rintro whole element part ⟨elements, rfl, found⟩ held
      simp [Node.at?, Node.children, found, held]
  | @member levels index cursor first named divider item target path key kind known unclosed reaches
      isName passedName divides passedColon _ ih =>
      rw [runAt_valueWithin_of_leftBrace kind, List.length_cons, Nat.add_sub_add_right]
      let inside : Cursor := { cursor with depth := cursor.depth + 1 }
      have opens : inside.current.kind = .symbol .leftBrace := kind
      have listed := reaches.carries_bracketed Node.object (Motion.shrinks.family.member maximum levels)
        opens known unclosed
      have valued : Carries (fun member part => member.value.at? path = some part)
          (runAt (Parse.member (valueWithin maximum levels)) named)
          (runAt (valueWithin maximum (levels - path.length)) target) := by
        apply (carries_member isName passedName divides passedColon).trans ih
        rintro member node part rfl held
        exact held
      refine Carries.deeper (listed.trans valued ?_)
      rintro whole member part ⟨members, rfl, found⟩ held
      simp [Node.at?, Node.children, found, held]

/-- Stepping into a container is a motion, one level down. -/
theorem leads_inside (motion : Motion) {first : Cursor}
    (known : Cursor.following? { cursor with depth := cursor.depth + 1 } = some first) :
    motion.leads cursor first ∧ first.depth = cursor.depth + 1 :=
  ⟨motion.trans (motion.frame cursor (cursor.depth + 1) cursor.sightings) (motion.follow known),
    (Cursor.following?_frame known).1⟩

/-- Where a value begins is related to where the whole one does, and the containers
around it are counted. -/
theorem Visits.leads (motion : Motion) (visits : Visits maximum levels cursor path target) :
    motion.leads cursor target ∧ target.depth = cursor.depth + path.length ∧
      path.length ≤ levels := by
  induction visits with
  | here levels cursor => exact ⟨motion.refl cursor, rfl, Nat.zero_le _⟩
  | @element levels index cursor first item target path kind known unclosed reaches _ ih =>
      obtain ⟨entered, enteredDepth⟩ := leads_inside motion known
      obtain ⟨listed, listedDepth⟩ :=
        reaches.leads motion (motion.family.valueWithin maximum levels)
      obtain ⟨inside, depth, low⟩ := ih
      refine ⟨motion.trans entered (motion.trans listed inside), ?_, Nat.succ_le_succ low⟩
      rw [depth, listedDepth, enteredDepth, List.length_cons]
      omega
  | @member levels index cursor first named divider item target path key kind known unclosed reaches
      _ passedName _ passedColon _ ih =>
      obtain ⟨entered, enteredDepth⟩ := leads_inside motion known
      obtain ⟨listed, listedDepth⟩ := reaches.leads motion (motion.family.member maximum levels)
      have valued := motion.trans (motion.follow passedName) (motion.follow passedColon)
      have nameDepth := (Cursor.following?_frame passedName).1
      have colonDepth := (Cursor.following?_frame passedColon).1
      obtain ⟨inside, depth, low⟩ := ih
      refine ⟨motion.trans entered (motion.trans listed (motion.trans valued inside)), ?_,
        Nat.succ_le_succ low⟩
      rw [depth, colonDepth, nameDepth, listedDepth, enteredDepth, List.length_cons]
      omega

/-- A value inside of one that extends to the end of the text is a part of it. -/
theorem Visits.carries_completeValue
    (visits : Visits maximum (maximum - cursor.depth) cursor path target) :
    Carries (fun whole part => whole.at? path = some part) (runAt (completeValue maximum) cursor)
      (runAt (valueWithin maximum (maximum - cursor.depth - path.length)) target) := by
  unfold completeValue
  rw [runAt_get_bind]
  apply visits.carries.bind
  intro whole part held
  exact .bind fun _ => .pure held

/-! ### What is inside was visited -/

variable {after : Cursor}

/-- A container was read with a level less to go. -/
theorem exists_levels_of_container {container : Parse Node → Parse Node} {node : Node}
    (run : runAt (JsonText.containerWithin maximum levels container) cursor = (.ok node, after)) :
    ∃ inner middle, levels = inner + 1 ∧
      runAt (container (valueWithin maximum inner)) { cursor with depth := cursor.depth + 1 } =
        (.ok node, middle) := by
  cases levels with
  | zero =>
      obtain ⟨middle, refused, -⟩ := runAt_deeper_eq_ok.mp run
      cases refused
  | succ inner =>
      obtain ⟨middle, read, -⟩ := runAt_deeper_eq_ok.mp run
      exact ⟨inner, middle, rfl, read⟩

/-- Every value inside of one that was read was visited. -/
theorem exists_visits_of_at? {whole node : Node}
    (run : runAt (valueWithin maximum levels) cursor = (.ok whole, after))
    (held : whole.at? path = some node) :
    ∃ target stopped, Visits maximum levels cursor path target ∧
      runAt (valueWithin maximum (levels - path.length)) target = (.ok node, stopped) := by
  induction path generalizing levels cursor whole after with
  | nil =>
      obtain rfl := Option.some.inj held
      exact ⟨cursor, after, .here levels cursor, run⟩
  | cons index path ih =>
      obtain ⟨child, found, heldChild⟩ := Option.bind_eq_some_iff.mp held
      rw [JsonText.valueWithin_eq] at run
      rcases JsonText.value_eq_ok run with
        ⟨kind, object⟩ | ⟨kind, array⟩ | ⟨leaf, rfl⟩ | ⟨text, tree, -, rfl⟩
      · obtain ⟨inner, middle, rfl, read⟩ := exists_levels_of_container object
        obtain ⟨first, members, known, rfl, items⟩ := exists_itemAt_of_bracketed read
        obtain ⟨property, foundProperty, rfl⟩ := Option.map_eq_some_iff.mp
          ((List.getElem?_map ..).symm.trans found)
        obtain ⟨unclosed, named, stopped, reaches, readProperty⟩ := items foundProperty
        obtain ⟨divider, item, isName, passedName, divides, passedColon, readItem⟩ :=
          JsonText.member_eq_ok readProperty
        obtain ⟨target, last, visits, readTarget⟩ := ih readItem heldChild
        refine ⟨target, last, .member kind known unclosed reaches isName passedName divides
          passedColon visits, ?_⟩
        rwa [List.length_cons, Nat.add_sub_add_right]
      · obtain ⟨inner, middle, rfl, read⟩ := exists_levels_of_container array
        obtain ⟨first, elements, known, rfl, items⟩ := exists_itemAt_of_bracketed read
        obtain ⟨unclosed, item, stopped, reaches, readItem⟩ := items found
        obtain ⟨target, last, visits, readTarget⟩ := ih readItem heldChild
        refine ⟨target, last, .element kind known unclosed reaches visits, ?_⟩
        rwa [List.length_cons, Nat.add_sub_add_right]
      · cases found
      · cases found

/-! ### Strings -/

variable {content : String}

/-- A string is no value if the token after it cannot be read. -/
theorem runAt_valueWithin_of_lost {error : ParseError} {upcoming : TokenStream}
    (kind : cursor.current.kind = .string content .double)
    (lost : cursor.upcoming.next = (.error error, upcoming)) :
    runAt (valueWithin maximum levels) cursor =
      (.error error, { cursor with upcoming := upcoming }) := by
  rw [JsonText.valueWithin_eq]
  simp only [value, runAt_get_bind, kind]
  exact runAt_bind_of_error (JsonText.runAt_jsonString_of_lost kind lost)

theorem runAt_valueWithin_of_string (kind : cursor.current.kind = .string content .double)
    (known : cursor.following? = some after) :
    runAt (valueWithin maximum levels) cursor =
      runAt (stringValue maximum content cursor.current) after := by
  rw [JsonText.valueWithin_eq]
  exact JsonText.runAt_value_string kind known

theorem runAt_stringValue_of_none {token : Token} (plain : Template.detect? content = none) :
    (runAt (stringValue maximum content token) cursor).1 =
      .ok (.literal ⟨.string content, token.raw⟩) := by
  rw [runAt_stringValue_of_plain plain]

theorem runAt_stringValue_of_some {token : Token} {embedded : Template.Embedded}
    (found : Template.detect? content = some embedded) :
    (runAt (stringValue maximum content token) cursor).1 =
      ((Expr.parseInside maximum cursor.depth embedded.source).map Node.template).mapError
        fun error => error.relocate fun inner =>
          token.offset + Template.rawIndex token.raw (embedded.start + inner) := by
  rw [runAt_stringValue_of_embedded found]

end Parse

end TemplatedJson
