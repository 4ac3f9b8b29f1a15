import EngineHost.Log.Wire
import EngineHost.Proofs.JsonReadBack

/-!
# Log lines from the guest

A log line that is written as JSON is read back as it was: its attributes in their order, its level
and its message, as long as its texts are well-formed. The timestamp is not written.
-/

namespace EngineHost.Log.WireMessage

open Json Json.Tree Utf8

private theorem attrMember?_spelled (a : WireAttr) (literal : Bytes) :
    attrMember? a (spelled "key", .string literal) = some { a with key := unescape literal } ∧
      attrMember? a (spelled "type", .string literal) = some { a with type := unescape literal } ∧
      attrMember? a (spelled "value", .string literal) =
        some { a with value := unescape literal } := by
  have hkey : names (spelled "key") "key" = true := by decide +kernel
  have htype : names (spelled "type") "key" = false ∧ names (spelled "type") "type" = true := by
    decide +kernel
  have hvalue : names (spelled "value") "key" = false ∧ names (spelled "value") "type" = false ∧
      names (spelled "value") "value" = true := by
    decide +kernel
  simp [attrMember?, textField?, hkey, htype, hvalue]

private theorem member?_spelled (r : Reading) (literal : Bytes) :
    member? r (spelled "level", .string literal) =
        some { r with line := { r.line with level := unescape literal } } ∧
      member? r (spelled "message", .string literal) =
        some { r with line := { r.line with message := unescape literal } } := by
  have hlevel : names (spelled "level") "timestamp" = false ∧
      names (spelled "level") "attrs" = false ∧ names (spelled "level") "level" = true := by
    decide +kernel
  have hmessage : names (spelled "message") "timestamp" = false ∧
      names (spelled "message") "attrs" = false ∧ names (spelled "message") "level" = false ∧
      names (spelled "message") "message" = true := by
    decide +kernel
  simp [member?, textField?, hlevel, hmessage]

private theorem member?_attrs (r : Reading) (t : Tree) :
    member? r (spelled "attrs", t) = attrsField? r t := by
  have hattrs : names (spelled "attrs") "timestamp" = false ∧
      names (spelled "attrs") "attrs" = true := by
    decide +kernel
  simp [member?, hattrs]

/-! ## Attributes -/

def attrTree (a : WireAttr) : Tree :=
  .object [(spelled "key", .string (spelled a.key)), (spelled "type", .string (spelled a.type)),
    (spelled "value", .string (spelled a.value))]

private theorem reads_attrJson {depth : Nat} (hdepth : depth < maxDepth) (a : WireAttr) :
    Reads depth (render (attrJson a)) (attrTree a) := by
  have htext := reads_string (depth + 1)
  apply reads_object hdepth
  exact .cons ⟨rfl, htext _⟩ (.cons ⟨rfl, htext _⟩ (.cons ⟨rfl, htext _⟩ .nil))

/-- Whether the texts of an attribute are well-formed. -/
def validAttr (a : WireAttr) : Bool := valid a.key && valid a.type && valid a.value

private theorem attr?_attrTree {a : WireAttr} (ha : validAttr a = true) :
    attr? {} (attrTree a) = some a := by
  have hmembers := attrMember?_spelled
  simp only [validAttr, Bool.and_eq_true] at ha
  simp [attr?, attrTree, hmembers, unescape_spelled, scrub, flatMap_encode_chars, ha]

private theorem attrs?_map_attrTree {attrs : List WireAttr} (h : attrs.all validAttr = true) :
    attrs? [] (attrs.map attrTree) = some attrs := by
  induction attrs with
  | nil => rfl
  | cons a attrs ih =>
    rw [List.all_cons, Bool.and_eq_true] at h
    simp [attrs?, attr?_attrTree h.1, ih h.2]

/-! ## Log lines -/

/-- The members of a log line that is written. -/
def memberTrees (w : WireMessage) : List (Bytes × Tree) :=
  (if w.attrs.isEmpty then [] else [(spelled "attrs", .array (w.attrs.map attrTree))]) ++
    [(spelled "level", .string (spelled w.level)), (spelled "message", .string (spelled w.message))]

private theorem parse?_encode (w : WireMessage) :
    parse? (encode w) = some (.object (memberTrees w)) := by
  have hattrs :
      Reads 1 (render (.array (w.attrs.map attrJson))) (.array (w.attrs.map attrTree)) := by
    apply reads_array (by decide)
    rw [List.forall₂_map_left_iff, List.forall₂_map_right_iff, List.forall₂_same]
    intro a _
    exact reads_attrJson (by decide) a
  apply Reads.parse?
  apply reads_object (by decide)
  have htexts := reads_string 1
  unfold memberTrees
  cases w.attrs.isEmpty with
  | true => exact .cons ⟨rfl, htexts _⟩ (.cons ⟨rfl, htexts _⟩ .nil)
  | false => exact .cons ⟨rfl, hattrs⟩ (.cons ⟨rfl, htexts _⟩ (.cons ⟨rfl, htexts _⟩ .nil))

private theorem attrsField?_map_attrTree {attrs : List WireAttr} (hsome : attrs ≠ [])
    (h : attrs.all validAttr = true) :
    attrsField? {} (.array (attrs.map attrTree)) = some { line := { attrs } } := by
  cases attrs with
  | nil => exact absurd rfl hsome
  | cons a attrs =>
    have hread := attrs?_map_attrTree h
    rw [List.map_cons] at hread ⊢
    simp [attrsField?, hread]

/-- Reading undoes writing, for every log line with well-formed texts. Its timestamp is the one
that a line without a timestamp has. -/
theorem decode?_encode (w : WireMessage) (hattrs : w.attrs.all validAttr = true)
    (hlevel : valid w.level = true) (hmessage : valid w.message = true) :
    decode? (encode w) = some { w with timestamp := {} } := by
  have htext : ∀ s, valid s = true → unescape (spelled s) = s := by
    intro s hs
    rw [unescape_spelled, scrub, flatMap_encode_chars hs]
  rw [decode?, parse?_encode]
  by_cases hempty : w.attrs = []
  · simp [memberTrees, hempty, member?_spelled, htext _ hlevel, htext _ hmessage]
  · have hread := attrsField?_map_attrTree hempty hattrs
    simp [memberTrees, hempty, member?_attrs, hread, member?_spelled, htext _ hlevel,
      htext _ hmessage]

/-- A line with quotes and backslashes at the ends of its texts, controls, markup, line separators
and characters of every width. -/
theorem decode?_encode_hard :
    let w : WireMessage :=
      { timestamp := { seconds := 5 }
        attrs := [⟨"\\", "\"int64\"", "<a href=\"&\">"⟩, ⟨"", "é\u2028", "\n\t\r\x08\x0c\x00\x1f\x7f"⟩]
        level := "\\u0041\""
        message := "水\u2029😀\\" }
    w.attrs.all validAttr = true ∧ valid w.level = true ∧ valid w.message = true ∧
      decode? (encode w) = some { w with timestamp := {} } := by
  intro w
  have hattrs : w.attrs.all validAttr = true := by decide +kernel
  have hlevel : valid w.level = true := by decide +kernel
  have hmessage : valid w.message = true := by decide +kernel
  exact ⟨hattrs, hlevel, hmessage, decode?_encode w hattrs hlevel hmessage⟩

end EngineHost.Log.WireMessage
