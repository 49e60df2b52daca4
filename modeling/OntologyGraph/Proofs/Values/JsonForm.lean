import OntologyGraph.Proofs.Maps.Entries
import OntologyGraph.Proofs.Maps.Sorting
import OntologyGraph.Proofs.Values.Parts

/-!
Values in JSON and back. What a value comes back as is its normal form: JSON has no instants and no
floats that are not finite, and the members of its objects are sorted. Going the other way only the
integers are lost that do not fit 64 bits with sign.
-/

namespace OntologyGraph

open Text

private theorem map_eq_self_iff {α : Type} (f : α → α) (as : List α) :
    as.map f = as ↔ ∀ a ∈ as, f a = a := by
  nth_rewrite 2 [← List.map_id as]
  exact List.map_inj_left

namespace Value

private theorem itemsToJson_eq_map (items : List Value) : itemsToJson items = items.map toJson := by
  induction items with
  | nil => rfl
  | cons item items ih => exact congrArg (_ :: ·) ih

private theorem entriesToJson_eq_map (entries : List (String × Value)) :
    entriesToJson entries = entries.map fun e => (e.1, e.2.toJson) := by
  induction entries with
  | nil => rfl
  | cons e entries ih => exact congrArg (_ :: ·) ih

private theorem itemsOfJson_eq_map (items : List Json) : itemsOfJson items = items.map ofJson := by
  induction items with
  | nil => rfl
  | cons item items ih => rw [itemsOfJson, ih, List.map_cons]

private theorem membersOfJson_eq_map (members : List (String × Json)) :
    membersOfJson members = members.map fun e => (e.1, ofJson e.2) := by
  induction members with
  | nil => rfl
  | cons e members ih => rw [membersOfJson, ih, List.map_cons]

theorem toJson_list (items : List Value) : toJson (.list items) = .array (items.map toJson) := by
  rw [← itemsToJson_eq_map]
  rfl

/-- The members of the object are those of the map, sorted. -/
theorem toJson_map {m : TextMap Value} (h : m.Unique) :
    toJson (.map m) = .object (sortedByKey (m.entries.map fun e => (e.1, e.2.toJson))) := by
  have hkeys : ((m.entries.map fun e => (e.1, e.2.toJson)).map (·.1)).Nodup := by
    rw [List.map_map]
    exact h
  rw [← insertAllSorted_eq hkeys, ← entriesToJson_eq_map]
  rfl

theorem ofJson_array (items : List Json) : ofJson (.array items) = .list (items.map ofJson) := by
  rw [ofJson, itemsOfJson_eq_map]

theorem unique_members {members : List (String × Json)} (h : (members.map (·.1)).Nodup) :
    (TextMap.mk (members.map fun e => (e.1, ofJson e.2))).Unique := by
  rw [TextMap.Unique, TextMap.keys, List.map_map]
  exact h

/-- No member is lost if none has the name of another. -/
theorem ofJson_object {members : List (String × Json)} (h : (members.map (·.1)).Nodup) :
    ofJson (.object members) = .map ⟨members.map fun e => (e.1, ofJson e.2)⟩ := by
  rw [ofJson, membersOfJson_eq_map]
  exact congrArg Value.map (TextMap.ofList_entries (unique_members h))

mutual

/-- A value as JSON can hold it: floats that are not finite are null, instants are their text, and
the entries of maps are in the order of their keys. -/
def normal : Value → Value
  | .null => .null
  | .bool b => .bool b
  | .int n => .int n
  | .float x => if x.isFinite = true then .float x else .null
  | .text s => .text s
  | .list items => .list (normalItems items)
  | .map ⟨entries⟩ => .map ⟨sortedByKey (normalEntries entries)⟩
  | .instant t => .text (toText (.instant t))
termination_by structural v => v

def normalItems : List Value → List Value
  | [] => []
  | v :: vs => v.normal :: normalItems vs
termination_by structural vs => vs

def normalEntries : List (String × Value) → List (String × Value)
  | [] => []
  | (k, v) :: es => (k, v.normal) :: normalEntries es
termination_by structural es => es

end

theorem normal_list (items : List Value) : normal (.list items) = .list (items.map normal) := by
  have hitems : normalItems items = items.map normal := by
    induction items with
    | nil => rfl
    | cons item items ih => exact congrArg (_ :: ·) ih
  rw [← hitems]
  rfl

theorem normal_map (m : TextMap Value) :
    normal (.map m) = .map ⟨sortedByKey (m.entries.map fun e => (e.1, e.2.normal))⟩ := by
  have hentries (entries : List (String × Value)) :
      normalEntries entries = entries.map fun e => (e.1, e.2.normal) := by
    induction entries with
    | nil => rfl
    | cons e entries ih => exact congrArg (_ :: ·) ih
  rw [← hentries]
  rfl

/-- The normal form of a value is its own normal form. -/
theorem normal_normal (v : Value) : v.normal.normal = v.normal := by
  induction v using partsInduction with
  | float x =>
    rw [normal]
    split
    · next hfinite => rw [normal, if_pos hfinite]
    · rfl
  | list items ih =>
    rw [normal_list, normal_list, List.map_map]
    exact congrArg Value.list (List.map_congr_left ih)
  | map m ih =>
    have hentries : (m.entries.map fun e => (e.1, e.2.normal)).map (fun e => (e.1, e.2.normal)) =
        m.entries.map fun e => (e.1, e.2.normal) := by
      rw [List.map_map]
      exact List.map_congr_left fun e hmem => congrArg (e.1, ·) (ih e hmem)
    rw [normal_map, normal_map]
    dsimp only
    -- The inner normal forms are taken before the sorting, where the induction reaches them.
    rw [map_sortedByKey, hentries, sortedByKey_idem]
  | _ => rfl

/-- A value read back from its JSON is its normal form, by induction on its parts. -/
theorem ofJson_toJson {v : Value} (h : v.UniqueKeys) : ofJson v.toJson = v.normal := by
  induction v using partsInduction with
  | float x =>
    rw [toJson, normal]
    by_cases hfinite : x.isFinite = true
    · rw [dif_pos hfinite, if_pos hfinite, ofJson]
    · rw [dif_neg hfinite, if_neg hfinite, ofJson]
  | list items ih =>
    rw [uniqueKeys_list_iff] at h
    rw [toJson_list, ofJson_array, normal_list, List.map_map]
    exact congrArg Value.list (List.map_congr_left fun item hmem => ih item hmem (h item hmem))
  | map m ih =>
    obtain ⟨hm, h⟩ := (uniqueKeys_map_iff m).mp h
    have hentries : (m.entries.map fun e => (e.1, e.2.toJson)).map (fun e => (e.1, ofJson e.2)) =
        m.entries.map fun e => (e.1, e.2.normal) := by
      rw [List.map_map]
      exact List.map_congr_left fun e hmem => congrArg (e.1, ·) (ih e hmem (h e hmem))
    -- Sorted or not, the members have the map's own keys, and none is lost on the way back.
    have hkeys : ((sortedByKey (m.entries.map fun e => (e.1, e.2.toJson))).map (·.1)).Nodup := by
      rw [((sortedByKey_perm _).map _).nodup_iff, List.map_map]
      exact hm
    rw [toJson_map hm, ofJson_object hkeys, map_sortedByKey, hentries, normal_map]
  | _ => simp only [toJson, ofJson, normal, toText]

end Value

namespace Json

/-- The members of every object in the value are in the order of their names, no two with one
name. -/
def Sorted (j : Json) : Prop :=
  ∀ members, PartOf (.object members) j → KeyBytesRise members

theorem sorted_array_iff (items : List Json) :
    Sorted (.array items) ↔ ∀ item ∈ items, item.Sorted := by
  constructor
  · intro h item hmem members hpart
    exact h members (.item hmem hpart)
  · intro h members hpart
    cases hpart with
    | item hmem hpart => exact h _ hmem members hpart

theorem sorted_object_iff (members : List (String × Json)) :
    Sorted (.object members) ↔ KeysRise members ∧ ∀ e ∈ members, e.2.Sorted := by
  rw [keysRise_iff]
  constructor
  · intro h
    exact ⟨h members (.refl _), fun e hmem members' hpart => h members' (.member hmem hpart)⟩
  · rintro ⟨hrise, hmembers⟩ members' hpart
    cases hpart with
    | refl => exact hrise
    | member hmem hpart => exact hmembers _ hmem members' hpart

/-- A number in the value is an integer that only fits 64 bits without sign. -/
def HoldsLarge (j : Json) : Prop :=
  ∃ n above, PartOf (.number (.large n above)) j

theorem holdsLarge_array_iff (items : List Json) :
    HoldsLarge (.array items) ↔ ∃ item ∈ items, item.HoldsLarge := by
  constructor
  · rintro ⟨n, above, hpart⟩
    cases hpart with
    | item hmem hpart => exact ⟨_, hmem, n, above, hpart⟩
  · rintro ⟨item, hmem, n, above, hpart⟩
    exact ⟨n, above, .item hmem hpart⟩

theorem holdsLarge_object_iff (members : List (String × Json)) :
    HoldsLarge (.object members) ↔ ∃ e ∈ members, e.2.HoldsLarge := by
  constructor
  · rintro ⟨n, above, hpart⟩
    cases hpart with
    | member hmem hpart => exact ⟨_, hmem, n, above, hpart⟩
  · rintro ⟨e, hmem, n, above, hpart⟩
    exact ⟨n, above, .member hmem hpart⟩

/-- An integer that comes back from a float is none. -/
theorem toJson_ofJson_large (n : UInt64) (above : Int64.maxValue.toInt < n.toNat) :
    (Value.ofJson (.number (.large n above))).toJson ≠ .number (.large n above) := by
  rw [Value.ofJson, Value.toJson]
  split <;> simp

/-- Sorted members come back in the places that they had. -/
theorem toJson_ofJson_object {members : List (String × Json)} (h : KeysRise members) :
    (Value.ofJson (.object members)).toJson =
      .object (members.map fun e => (e.1, (Value.ofJson e.2).toJson)) := by
  have hkeys := nodup_keys_of_keysRise h
  have hsorted := sortedByKey_of_keysRise (keysRise_map (fun j => (Value.ofJson j).toJson) h)
  rw [Value.ofJson_object hkeys, Value.toJson_map (Value.unique_members hkeys), List.map_map]
  exact congrArg Json.object hsorted

/-- JSON is written back as it was read exactly if it holds no integer beyond the signed range. -/
theorem toJson_ofJson_iff {j : Json} (h : j.Sorted) :
    (Value.ofJson j).toJson = j ↔ ¬ j.HoldsLarge := by
  induction j using partsInduction with
  | null | bool _ | text _ =>
    refine iff_of_true (by simp only [Value.ofJson, Value.toJson]) ?_
    rintro ⟨n, above, ⟨⟩⟩
  | number n =>
    cases n with
    | int n =>
      refine iff_of_true (by simp only [Value.ofJson, Value.toJson]) ?_
      rintro ⟨n, above, ⟨⟩⟩
    | large n above =>
      -- The only number that does not come back: it turns into a float.
      exact iff_of_false (toJson_ofJson_large n above) fun hnone => hnone ⟨n, above, .refl _⟩
    | float x finite =>
      refine iff_of_true (by simp only [Value.ofJson, Value.toJson, dif_pos finite]) ?_
      rintro ⟨n, above, ⟨⟩⟩
  | array items ih =>
    rw [sorted_array_iff] at h
    rw [Value.ofJson_array, Value.toJson_list, List.map_map, Json.array.injEq, map_eq_self_iff,
      holdsLarge_array_iff]
    simp only [not_exists, not_and]
    exact forall₂_congr fun item hmem => ih item hmem (h item hmem)
  | object members ih =>
    obtain ⟨hrise, h⟩ := (sorted_object_iff members).mp h
    rw [toJson_ofJson_object hrise, Json.object.injEq, map_eq_self_iff,
      holdsLarge_object_iff]
    simp only [not_exists, not_and]
    refine forall₂_congr fun e hmem => ?_
    rw [← ih e hmem (h e hmem)]
    exact ⟨fun heq => congrArg Prod.snd heq, fun heq => congrArg (e.1, ·) heq⟩

end Json

/-- Going to JSON and back makes a value normal, and a value that is normal stays as it is. Coming
from JSON and going back there changes nothing unless there is an integer that only fits 64 bits
without sign. -/
theorem json_back_and_forth :
    (∀ v : Value, v.UniqueKeys → Value.ofJson v.toJson = v.normal) ∧
      (∀ v : Value, v.normal.normal = v.normal) ∧
      ∀ j : Json, j.Sorted → ((Value.ofJson j).toJson = j ↔ ¬ j.HoldsLarge) :=
  ⟨fun _ => Value.ofJson_toJson, Value.normal_normal, fun _ => Json.toJson_ofJson_iff⟩

def nestedValue : Value :=
  .map ⟨[("b", .list [.instant ⟨0, 500000000, by decide⟩, .map ⟨[("z", .null), ("", .bool true)]⟩]),
    ("a", .int 1)]⟩

def largestJson : Json :=
  .object [("", .null),
    ("a", .array [.object [("b", .number (.large 0xffffffffffffffff (by decide)))]])]

theorem json_back_and_forth_nestedValue :
    nestedValue.UniqueKeys ∧ Value.ofJson nestedValue.toJson =
      .map ⟨[("a", .int 1), ("b", .list [.text "1970-01-01T00:00:00.500Z",
        .map ⟨[("", .bool true), ("z", .null)]⟩])]⟩ ∧
      largestJson.Sorted ∧ (Value.ofJson largestJson).toJson ≠ largestJson := by
  have hunique : nestedValue.UniqueKeys := by
    simp only [nestedValue, Value.uniqueKeys_map_iff, Value.uniqueKeys_list_iff,
      List.forall_mem_cons, List.not_mem_nil, false_imp_iff, implies_true, and_true]
    refine ⟨?_, ⟨fun _ h => (nomatch h), ?_, fun _ h => (nomatch h), fun _ h => nomatch h⟩,
      fun _ h => nomatch h⟩
    · unfold TextMap.Unique
      decide
    · unfold TextMap.Unique
      decide
  have hsorted : largestJson.Sorted := by
    simp only [largestJson, Json.sorted_object_iff, Json.sorted_array_iff, List.forall_mem_cons,
      List.not_mem_nil, false_imp_iff, implies_true, and_true]
    refine ⟨?_, fun _ h => (nomatch h), List.pairwise_singleton _ _, fun _ h => nomatch h⟩
    unfold KeysRise
    decide
  have hlarge : largestJson.HoldsLarge :=
    ⟨_, _, .member (List.mem_cons_of_mem _ List.mem_cons_self)
      (.item List.mem_cons_self (.member List.mem_cons_self (.refl _)))⟩
  refine ⟨hunique, ?_, hsorted, ?_⟩
  · have hinner : KeysRise [("", Value.bool true), ("z", .null)] := by
      unfold KeysRise
      decide
    have hnames : "a" < "b" := by decide
    have houter (inner : Value) : KeysRise [("a", Value.int 1), ("b", inner)] :=
      List.pairwise_pair.mpr hnames
    rw [json_back_and_forth.1 nestedValue hunique, nestedValue]
    simp only [Value.normal, Value.normalEntries, Value.normalItems]
    rw [sortedByKey_eq_of_perm (.swap _ _ _) (houter _),
      sortedByKey_eq_of_perm (.swap _ _ _) hinner]
    rfl
  · intro h
    exact (json_back_and_forth.2.2 largestJson hsorted).mp h hlarge

end OntologyGraph
