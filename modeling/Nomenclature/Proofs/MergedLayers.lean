import Nomenclature.Proofs.StandardResolution

/-!
# The union of layers

Layers are merged into one table by taking their entries over one after the other. What comes of it
is a union with the first layer foremost: each layer adds, in its own order, the entries by
which it sets a key that no layer above sets. By induction over the layers this is the whole table,
with its order. A null sets nothing, and no other value does so.
-/

namespace Nomenclature.Layers

/-- The entries by which a layer sets a key that no layer above sets. -/
def newEntries (above : List Entries) (layer : Entries) : Entries :=
  layer.filter fun entry => !entry.2.isNull && above.all fun upper => (set? upper entry.1).isNone

/-- What layers add to those above, one layer after the other. -/
def added (above : List Entries) : List Entries → Entries
  | [] => []
  | layer :: rest => newEntries above layer ++ added (above ++ [layer]) rest

/-- A layer sets what it holds under a key unless that is null. -/
theorem set?_eq_some_iff {layer : Entries} (hlayer : Table.Distinct layer) (key value : Value) :
    set? layer key = some value ↔ Table.lookup? layer key = some value ∧ value ≠ .null := by
  have hnull : value.isNull = false ↔ value ≠ .null := by
    cases value <;> simp [Value.isNull]
  rw [set?_eq_filter hlayer, Option.filter_eq_some_iff, Bool.not_eq_true', hnull]

/-- A key is in the union exactly if one of the layers sets it. -/
theorem hasKey_union (layers : List Entries) (key : Value) :
    Table.hasKey (union layers) key = layers.any fun layer => (set? layer key).isSome := by
  rw [Table.hasKey_eq_isSome, lookup?_union, Bool.eq_iff_iff, List.any_eq_true,
    List.findSome?_isSome_iff]

/-- One more layer adds its new entries at the end. -/
theorem union_concat (layers : List Entries) {layer : Entries} (hlayer : Table.Distinct layer) :
    union (layers ++ [layer]) = union layers ++ newEntries layers layer := by
  have hunknown (key : Value) : (!Table.hasKey (union layers) key) =
      layers.all fun upper => (set? upper key).isNone := by
    rw [hasKey_union, List.not_any_eq_all_not]
    simp only [Option.not_isSome]
  calc
    union (layers ++ [layer]) = layer.foldl take (union layers) := by
      rw [union, List.foldl_append]
      rfl
    _ = union layers ++ layer.filter fun entry =>
        !entry.2.isNull && !Table.hasKey (union layers) entry.1 := foldl_take hlayer _
    _ = union layers ++ newEntries layers layer := by
      simp only [hunknown]
      rfl

/-- Any number of layers add their new entries one after the other. -/
theorem union_append (above : List Entries) {layers : List Entries}
    (hlayers : ∀ layer ∈ layers, Table.Distinct layer) :
    union (above ++ layers) = union above ++ added above layers := by
  induction layers generalizing above with
  | nil => rw [added, List.append_nil, List.append_nil]
  | cons layer rest ih =>
      obtain ⟨hlayer, hrest⟩ := List.forall_mem_cons.1 hlayers
      calc
        union (above ++ layer :: rest) = union ((above ++ [layer]) ++ rest) := by
          rw [List.append_assoc, List.singleton_append]
        _ = union (above ++ [layer]) ++ added (above ++ [layer]) rest := ih (above ++ [layer]) hrest
        _ = union above ++ added above (layer :: rest) := by
          rw [union_concat above hlayer, List.append_assoc, added]

theorem union_eq_added {layers : List Entries}
    (hlayers : ∀ layer ∈ layers, Table.Distinct layer) : union layers = added [] layers :=
  union_append [] hlayers

/-- Mappings with whatever keys are merged into their union. A layer sets all that it holds but the
nulls, so what is empty, zero or false is set like anything else. A key is there exactly if a layer
sets it, with the value of the first layer that does, and nothing there is null. The entries stand
in the order of the layers, and within each layer as they stand there. -/
theorem merged_firstSet (frozen frozen' frozen'' : Bool) {overrides raw defaults : Entries}
    (hoverrides : Table.Distinct overrides) (hraw : Table.Distinct raw)
    (hdefaults : Table.Distinct defaults) :
    ∃ settings,
      merged (.mapping frozen'' defaults) (.mapping frozen' raw) (.mapping frozen overrides) =
          .ok settings ∧
        (∀ layer ∈ [overrides, raw, defaults], ∀ key value, set? layer key = some value ↔
          Table.lookup? layer key = some value ∧ value ≠ .null) ∧
        (∀ key, Table.hasKey settings key = true ↔ ∃ layer ∈ [overrides, raw, defaults],
          ∃ value, Table.lookup? layer key = some value ∧ value ≠ .null) ∧
        (∀ key, Table.lookup? settings key = [overrides, raw, defaults].findSome? (set? · key)) ∧
        (∀ entry ∈ settings, entry.2 ≠ .null) ∧
        Table.Distinct settings ∧
        settings = newEntries [] overrides ++ newEntries [overrides] raw ++
          newEntries [overrides, raw] defaults := by
  have hlayers : ∀ layer ∈ [overrides, raw, defaults], Table.Distinct layer := by
    simp only [List.forall_mem_cons]
    exact ⟨hoverrides, hraw, hdefaults, List.forall_mem_nil _⟩
  have hset : ∀ layer ∈ [overrides, raw, defaults], ∀ key value, set? layer key = some value ↔
      Table.lookup? layer key = some value ∧ value ≠ .null :=
    fun layer hlayer => set?_eq_some_iff (hlayers layer hlayer)
  refine ⟨union [overrides, raw, defaults], ?_, hset, ?_, lookup?_union _, ?_, distinct_union _, ?_⟩
  · exact merged_mapping (entries_mapping frozen' raw) (entries_mapping frozen overrides) _ _
  · intro key
    rw [hasKey_union, List.any_eq_true]
    refine exists_congr fun layer => and_congr_right fun hlayer => ?_
    rw [Option.isSome_iff_exists]
    exact exists_congr fun value => hset layer hlayer key value
  · intro entry hentry hnull
    obtain ⟨layer, -, -, hvalue⟩ := mem_of_mem_union hentry
    rw [hnull] at hvalue
    cases hvalue
  · rw [union_eq_added hlayers]
    simp [added]

/-- Overrides with a null, and with a number and an empty text that count as set. -/
def emptyOverrides : Entries :=
  [(.text "typesPrefix", .null), (.integer 1, .text ""), (.text "a", .boolean false)]

/-- A raw configuration with the number in another form. -/
def emptyRaw : Entries :=
  [(.boolean true, .text "hidden"), (.text "typesPrefix", .list []), (.text "b", .null)]

def emptyDefaults : Entries :=
  [(.text "b", .integer 0), (.text "typesPrefix", .text "I"), (.text "a", .boolean true),
    (.text "c", .null)]

/-- What is empty, zero or false is set in every layer, and a null in none. -/
theorem merged_firstSet_empty :
    Table.Distinct emptyOverrides ∧ Table.Distinct emptyRaw ∧ Table.Distinct emptyDefaults ∧
      merged (.mapping true emptyDefaults) (.mapping false emptyRaw)
          (.mapping false emptyOverrides) =
        .ok [(.integer 1, .text ""), (.text "a", .boolean false), (.text "typesPrefix", .list []),
          (.text "b", .integer 0)] := by
  have hoverrides : Table.Distinct emptyOverrides := by decide
  have hraw : Table.Distinct emptyRaw := by decide
  have hdefaults : Table.Distinct emptyDefaults := by decide
  obtain ⟨settings, hmerged, -, -, -, -, -, horder⟩ :=
    merged_firstSet false false true hoverrides hraw hdefaults
  refine ⟨hoverrides, hraw, hdefaults, ?_⟩
  rw [hmerged, horder]
  rfl

end Nomenclature.Layers
