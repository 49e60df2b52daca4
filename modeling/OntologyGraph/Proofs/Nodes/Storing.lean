import OntologyGraph.Node
import OntologyGraph.Proofs.Maps.Insertions

/-!
Nodes as they are stored and loaded again. The identifier goes into the store as text and as the
first property, and comes back out of both. No property of a loaded node has the key of the
identifier, and setting properties never adds one.
-/

namespace OntologyGraph

namespace NodeId

/-- Thirty-two digits are five groups. -/
private theorem exists_groups {digits : List Char} (h : digits.length = 32) :
    ∃ a b c d e : List Char, digits = a ++ (b ++ (c ++ (d ++ e))) ∧
      a.length = 8 ∧ b.length = 4 ∧ c.length = 4 ∧ d.length = 4 ∧ e.length = 12 := by
  let behindA := digits.drop 8
  let behindB := behindA.drop 4
  let behindC := behindB.drop 4
  refine ⟨digits.take 8, behindA.take 4, behindB.take 4, behindC.take 4, behindC.drop 4, ?_, ?_⟩
  · simp only [behindC, behindB, behindA, List.take_append_drop]
  · simp [behindC, behindB, behindA, h]

section Groups

variable {a b c d e : List Char} (ha : a.length = 8) (hb : b.length = 4) (hc : c.length = 4)
  (hd : d.length = 4) (he : e.length = 12)

include ha hb hc hd

private theorem grouped_append :
    grouped (a ++ (b ++ (c ++ (d ++ e)))) =
      a ++ '-' :: (b ++ '-' :: (c ++ '-' :: (d ++ '-' :: e))) := by
  simp (disch := omega) [grouped, List.drop_append, List.drop_of_length_le, ha, hb, hc]

include he

private theorem ungrouped?_append :
    ungrouped? (a ++ '-' :: (b ++ '-' :: (c ++ '-' :: (d ++ '-' :: e)))) =
      some (a ++ (b ++ (c ++ (d ++ e)))) := by
  simp (disch := omega) [ungrouped?, List.drop_append, List.drop_of_length_le,
    List.getElem?_append_right, List.getElem?_cons_zero, ha, hb, hc, hd, he]

end Groups

/-- Thirty-two digits are read back from their groups. -/
theorem ungrouped?_grouped {digits : List Char} (h : digits.length = 32) :
    ungrouped? (grouped digits) = some digits := by
  obtain ⟨a, b, c, d, e, rfl, ha, hb, hc, hd, he⟩ := exists_groups h
  rw [grouped_append ha hb hc hd, ungrouped?_append ha hb hc hd he]

private theorem length_grouped {digits : List Char} (h : digits.length = 32) :
    (grouped digits).length = 36 := by
  simp [grouped, h]

/-- Grouped digits are neither in braces nor in a name space, which has a colon where the first
dash is. -/
theorem unwrapped_grouped {digits : List Char} (h : digits.length = 32) :
    unwrapped (grouped digits) = grouped digits := by
  have hdash : (((grouped digits).take 9).map Char.toLower)[8]? = some '-' := by
    obtain ⟨a, b, c, d, e, rfl, ha, hb, hc, hd, -⟩ := exists_groups h
    rw [grouped_append ha hb hc hd]
    simp [List.take_append, ha]
  have hcolon : nameSpace[8]? = some ':' := by decide
  have hnameSpace : ((grouped digits).take 9).map Char.toLower ≠ nameSpace := by
    intro heq
    rw [heq, hcolon] at hdash
    cases hdash
  rw [unwrapped, length_grouped h, if_neg (by simp), if_neg hnameSpace]

/-- The text of an identifier spells it. -/
theorem ofText?_toText (id : NodeId) : ofText? id.toText = some id := by
  have hlength : id.digits.length = 32 := Text.Hex.length_encode 32 _
  have hpow : Nat.pow 16 32 = Nat.pow 2 128 := by decide
  have hfits : id.bits.toNat < Nat.pow 16 32 := by
    rw [hpow]
    exact id.bits.isLt
  have hdigits : ofDigits? id.digits = some id := by
    rw [ofDigits?, if_pos hlength, digits, Text.Hex.decode?_encode hfits, Option.map_some,
      BitVec.ofNat_toNat, BitVec.setWidth_eq]
  -- The text is longer than bare digits, so it is read as groups.
  have hplain : ofDigits? id.chars = none := by
    rw [ofDigits?, chars, length_grouped hlength, if_neg (by decide)]
  rw [ofText?, toText, String.toList_ofList, ofChars?, hplain, Option.none_or, chars,
    unwrapped_grouped hlength, ofGrouped?, ungrouped?_grouped hlength, Option.bind_some, hdigits]

end NodeId

namespace Node

def WithoutId (n : Node) : Prop :=
  NodeId.property ∉ n.properties.keys

/-- One property of a node is set: it has the new value in the place of the old one, or comes last
if there was none, and all else is as it was. -/
structure Sets (n : Node) (key : String) (value : Value) (old : Option Value) (n' : Node) :
    Prop where
  id : n'.id = n.id
  labels : n'.labels = n.labels
  properties : TextMap.Puts key value n.properties.entries old n'.properties.entries

/-- The id of a node cannot be set as a property. -/
theorem set_id (n : Node) (value : Value) : n.set NodeId.property value = (none, n) :=
  if_pos rfl

theorem set_of_ne (n : Node) {key : String} (h : key ≠ NodeId.property) (value : Value) :
    n.set key value =
      (n.properties.get? key, { n with properties := n.properties.insert key value }) :=
  if_neg h

/-- Setting a property puts the value in its place and leaves all else of the node as it was. -/
theorem sets_set (n : Node) {key : String} (h : key ≠ NodeId.property) (value : Value) :
    n.Sets key value (n.set key value).1 (n.set key value).2 := by
  rw [set_of_ne n h]
  exact ⟨rfl, rfl, TextMap.puts_put key value n.properties.entries⟩

/-- A node comes to another by properties that are set one after the other. -/
inductive Becomes (n : Node) : Node → Prop where
  | refl : Becomes n n
  | set {n' : Node} (key : String) (value : Value) : Becomes n n' → Becomes n (n'.set key value).2

/-- Setting a property never puts the id among the properties. -/
theorem WithoutId.set {n : Node} (h : n.WithoutId) (key : String) (value : Value) :
    (n.set key value).2.WithoutId := by
  by_cases hkey : key = NodeId.property
  · rw [hkey, set_id]
    exact h
  · rw [set_of_ne n hkey, WithoutId, TextMap.keys_insert]
    split
    · exact h
    · rw [List.mem_append, List.mem_singleton, not_or]
      exact ⟨h, Ne.symm hkey⟩

/-- By induction on the properties set, the id never gets among them. -/
theorem Becomes.withoutId {n n' : Node} (h : n.Becomes n') (hn : n.WithoutId) : n'.WithoutId := by
  induction h with
  | refl => exact hn
  | set key value _ ih => exact ih.set key value

/-- A node made of stored parts does not have its id among its properties. -/
theorem withoutId_ofParts {id? : Option String} {labels : List String}
    {properties? : Option PropertyMap} {n : Node}
    (hunique : ∀ properties, properties? = some properties → properties.Unique)
    (h : ofParts id? labels properties? = .ok n) : n.WithoutId := by
  have hproperties : (properties?.getD ∅).Unique := by
    cases properties? with
    | none => exact List.nodup_nil
    | some properties => exact hunique properties rfl
  unfold ofParts at h
  split at h
  · cases h
  · split at h
    · cases h
    -- What is stored under the key is dropped, whatever it is.
    · cases h
      exact TextMap.not_mem_keys_erase hproperties NodeId.property

/-- A node is stored with its id first and its properties behind, in their order. -/
theorem storedProperties_entries {n : Node} (hunique : n.properties.Unique) (h : n.WithoutId) :
    n.storedProperties.entries =
      (NodeId.property, .text n.id.toText) :: n.properties.entries := by
  rw [storedProperties, TextMap.entries_withFirst_singleton hunique, TextMap.erase_of_not_mem h]

/-- The parts a node is stored in make up the same node again. -/
theorem ofParts_storedProperties {n : Node} (hunique : n.properties.Unique) (h : n.WithoutId) :
    ofParts (some n.id.toText) n.labels (some n.storedProperties) = .ok n := by
  have hrest : n.storedProperties.erase NodeId.property = n.properties := by
    apply TextMap.eq_of_entries_eq
    change TextMap.drop NodeId.property n.storedProperties.entries = _
    rw [storedProperties_entries hunique h, TextMap.drop, if_pos rfl]
  simp only [ofParts, NodeId.ofText?_toText, Option.getD_some, hrest]

/-- A node is loaded as it was stored. Among its properties there never is one with the key of the
identifier, and each that is set takes the place of its own value only. -/
theorem load_stored :
    (∀ n : Node, n.properties.Unique → n.WithoutId →
      n.storedProperties.entries =
          (NodeId.property, .text n.id.toText) :: n.properties.entries ∧
        ofParts (some n.id.toText) n.labels (some n.storedProperties) = .ok n) ∧
      (∀ id? labels properties? n,
        (∀ properties, properties? = some properties → properties.Unique) →
        ofParts id? labels properties? = .ok n → ∀ n', n.Becomes n' → n'.WithoutId) ∧
      (∀ n n' : Node, n.WithoutId → n.Becomes n' → n'.WithoutId) ∧
      (∀ (n : Node) value, n.set NodeId.property value = (none, n)) ∧
      ∀ (n : Node) key value, key ≠ NodeId.property →
        n.Sets key value (n.set key value).1 (n.set key value).2 := by
  refine ⟨?_, ?_, ?_, set_id, fun n key value hkey => sets_set n hkey value⟩
  · intro n hunique h
    exact ⟨storedProperties_entries hunique h, ofParts_storedProperties hunique h⟩
  · intro id? labels properties? n hunique h n' hbecomes
    exact hbecomes.withoutId (withoutId_ofParts hunique h)
  · intro n n' h hbecomes
    exact hbecomes.withoutId h

def oddNode : Node where
  id := ⟨10⟩
  labels := ["Species", "a\x60b"]
  properties := ⟨[("title", .text ""), ("neuro.ID", .list [.null]), ("", .bool true)]⟩

theorem load_stored_oddNode :
    let retitled := (oddNode.set "title" .null).2
    oddNode.properties.Unique ∧ oddNode.WithoutId ∧
      ofParts (some "00000000-0000-0000-0000-00000000000a") oddNode.labels
        (some oddNode.storedProperties) = .ok oddNode ∧
      oddNode.Sets "title" .null (some (.text "")) retitled ∧
      retitled.WithoutId ∧ (retitled.set "note" (.int 1)).2.WithoutId := by
  intro retitled
  obtain ⟨hstored, hloaded, hkept, -, hsets⟩ := load_stored
  have hunique : oddNode.properties.Unique := by
    unfold TextMap.Unique
    decide
  have hwithout : oddNode.WithoutId := by
    unfold WithoutId
    decide
  have htext : oddNode.id.toText = "00000000-0000-0000-0000-00000000000a" := by decide
  obtain ⟨hentries, hload⟩ := hstored oddNode hunique hwithout
  rw [htext] at hload
  have hstoredUnique : oddNode.storedProperties.Unique := by
    rw [TextMap.Unique, TextMap.keys, hentries]
    decide
  have hretitled : retitled.WithoutId := by
    refine hloaded _ _ _ oddNode ?_ hload retitled (.set "title" .null .refl)
    rintro _ ⟨⟩
    exact hstoredUnique
  refine ⟨hunique, hwithout, hload, hsets oddNode "title" .null (by decide), hretitled, ?_⟩
  exact hkept retitled _ hretitled (.set "note" (.int 1) .refl)

end Node

end OntologyGraph
