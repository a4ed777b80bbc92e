import Nomenclature.Proofs.MergedLayers

/-!
# Two layers in one

Overrides and a raw configuration come to one flat layer: what the overrides set, then what the raw
configuration sets under other keys. The flat layer sets a key exactly if one of the two does, and
over it the defaults are merged in the same order, so it takes the place of both, as overrides or as
the raw configuration. A resolution looks at the layers in one more place, to see whether one of
them sets a default type; there, too, it makes no difference.
-/

namespace Nomenclature

namespace Layers

/-- What overrides set, followed by what a raw configuration sets under other keys. -/
def flat (overrides raw : Entries) : Entries :=
  overrides.filter (fun entry => !entry.2.isNull) ++
    raw.filter fun entry => !entry.2.isNull && (set? overrides entry.1).isNone

section

variable {overrides raw : Entries}

/-- The flat layer is what the two layers are merged into. -/
theorem union_eq_flat (hoverrides : Table.Distinct overrides) (hraw : Table.Distinct raw) :
    union [overrides, raw] = flat overrides raw := by
  have hlayers : ∀ layer ∈ [overrides, raw], Table.Distinct layer := by
    simp only [List.forall_mem_cons]
    exact ⟨hoverrides, hraw, List.forall_mem_nil _⟩
  rw [union_eq_added hlayers]
  simp [added, newEntries, flat]

theorem distinct_flat (hoverrides : Table.Distinct overrides) (hraw : Table.Distinct raw) :
    Table.Distinct (flat overrides raw) := by
  rw [← union_eq_flat hoverrides hraw]
  exact distinct_union _

theorem isNull_flat : ∀ entry ∈ flat overrides raw, entry.2.isNull = false := by
  intro entry hentry
  rcases List.mem_append.1 hentry with hentry | hentry
  · simpa using (List.mem_filter.1 hentry).2
  · have hkept := (List.mem_filter.1 hentry).2
    rw [Bool.and_eq_true] at hkept
    simpa using hkept.1

/-- Merging the flat layer by itself changes nothing. -/
theorem foldl_take_flat (hoverrides : Table.Distinct overrides) (hraw : Table.Distinct raw) :
    (flat overrides raw).foldl take [] = flat overrides raw := by
  rw [foldl_take (distinct_flat hoverrides hraw), List.nil_append, List.filter_eq_self]
  intro entry hentry
  simp [isNull_flat entry hentry, Table.hasKey]

/-- Over any defaults the flat layer takes the place of both layers. -/
theorem union_flat (hoverrides : Table.Distinct overrides) (hraw : Table.Distinct raw)
    (defaults : Entries) :
    union [[], flat overrides raw, defaults] = union [overrides, raw, defaults] ∧
      union [flat overrides raw, [], defaults] = union [overrides, raw, defaults] := by
  have hboth : union [overrides, raw, defaults] = defaults.foldl take (flat overrides raw) := by
    rw [← union_eq_flat hoverrides hraw]
    rfl
  have hflat : union [flat overrides raw, [], defaults] =
      defaults.foldl take ((flat overrides raw).foldl take []) := rfl
  rw [foldl_take_flat hoverrides hraw, ← hboth] at hflat
  exact ⟨hflat, hflat⟩

/-- The flat layer sets a key exactly if one of the two layers does, the overrides foremost. -/
theorem set?_flat (hoverrides : Table.Distinct overrides) (hraw : Table.Distinct raw)
    (key : Value) :
    set? (flat overrides raw) key = (set? overrides key).or (set? raw key) :=
  calc
    set? (flat overrides raw) key = Table.lookup? ((flat overrides raw).foldl take []) key := by
        rw [lookup?_foldl_take, Table.lookup?_nil, Option.none_or]
    _ = Table.lookup? (union [overrides, raw]) key := by
        rw [foldl_take_flat hoverrides hraw, union_eq_flat hoverrides hraw]
    _ = (set? overrides key).or (set? raw key) := by
        rw [lookup?_union]
        cases hfirst : set? overrides key <;> cases hsecond : set? raw key <;>
          simp [hfirst, hsecond]

end

theorem sets_mapping (frozen : Bool) {layer : Entries} (hlayer : Table.Distinct layer)
    (key : String) : sets (.mapping frozen layer) key = (set? layer (.text key)).isSome := by
  rw [sets_eq (entries_mapping frozen layer)]
  cases hset : set? layer (.text key) with
  | none => simp [(set?_eq_none_iff hlayer key).1 hset]
  | some value =>
      have hnull : (Entries.named layer key).isNull = false := by
        rw [← Bool.not_eq_true, ← set?_eq_none_iff hlayer, hset]
        exact Option.some_ne_none value
      simp [hnull]

theorem sets_null (key : String) : sets .null key = false := rfl

end Layers

namespace Resolve

/-- A resolution depends on its layers only by what they are merged into and by whether one of them
sets a default type. -/
theorem run_congr {host : Host} {defaults raw overrides raw' overrides' : Value}
    (hmerged : Layers.merged defaults raw overrides = Layers.merged defaults raw' overrides')
    (hsets : (Layers.sets raw "defaultScalarType" || Layers.sets overrides "defaultScalarType") =
      (Layers.sets raw' "defaultScalarType" || Layers.sets overrides' "defaultScalarType")) :
    run host defaults raw overrides = run host defaults raw' overrides' := by
  have hsettle : settle host defaults raw overrides = settle host defaults raw' overrides' := by
    rw [settle, settle, hmerged, hsets]
  rw [run, run, hsettle]

theorem merged_congr {raw overrides raw' overrides' : Value}
    {upper lower upper' lower' : Entries}
    (hoverrides : Layers.entries (Layers.orEmpty overrides) = .ok upper)
    (hraw : Layers.entries (Layers.orEmpty raw) = .ok lower)
    (hoverrides' : Layers.entries (Layers.orEmpty overrides') = .ok upper')
    (hraw' : Layers.entries (Layers.orEmpty raw') = .ok lower')
    (hunion : ∀ known, Layers.union [upper, lower, known] = Layers.union [upper', lower', known])
    (defaults : Value) :
    Layers.merged defaults raw overrides = Layers.merged defaults raw' overrides' := by
  rw [Layers.merged, Layers.merged, hoverrides, hraw, hoverrides', hraw']
  cases hknown : Layers.entries defaults with
  | error fault => rfl
  | ok known => exact congrArg Except.ok (hunion known)

/-- Resolving two layers is resolving the flat layer, as the raw configuration or as overrides: the
same configuration or the same fault, and the same notes, over any defaults. -/
theorem run_flat (host : Host) (defaults : Value) {overrides raw : Entries}
    (frozen frozen' : Bool) (hoverrides : Table.Distinct overrides) (hraw : Table.Distinct raw) :
    run host defaults (.mapping false (Layers.flat overrides raw)) .null =
        run host defaults (.mapping frozen raw) (.mapping frozen' overrides) ∧
      run host defaults .null (.mapping false (Layers.flat overrides raw)) =
        run host defaults (.mapping frozen raw) (.mapping frozen' overrides) := by
  have hflat := Layers.distinct_flat hoverrides hraw
  have hsets : Layers.sets (.mapping false (Layers.flat overrides raw)) "defaultScalarType" =
      (Layers.sets (.mapping frozen raw) "defaultScalarType" ||
        Layers.sets (.mapping frozen' overrides) "defaultScalarType") := by
    rw [Layers.sets_mapping false hflat, Layers.sets_mapping frozen hraw,
      Layers.sets_mapping frozen' hoverrides, Layers.set?_flat hoverrides hraw, Option.isSome_or,
      Bool.or_comm]
  have hupper := Layers.entries_mapping frozen' overrides
  have hlower := Layers.entries_mapping frozen raw
  have hlayer := Layers.entries_mapping false (Layers.flat overrides raw)
  constructor
  · apply run_congr
    · apply merged_congr Layers.entries_null hlayer hupper hlower
      exact fun known => (Layers.union_flat hoverrides hraw known).1
    · rw [hsets, Layers.sets_null, Bool.or_false]
  · apply run_congr
    · apply merged_congr hlayer Layers.entries_null hupper hlower
      exact fun known => (Layers.union_flat hoverrides hraw known).2
    · rw [hsets, Layers.sets_null, Bool.false_or]

/-- Overrides with strictness, a null, and a number as a key. -/
def strictOverrides : Entries :=
  [(.text "strictScalars", .boolean true), (.text "typesPrefix", .null),
    (.integer 1, .text "plugin")]

/-- A raw configuration with a default type, and with the same number in another form as a key. -/
def typedRaw : Entries :=
  [(.boolean true, .text "hidden"), (.text "typesPrefix", .text "I"),
    (.text "defaultScalarType", .text "Date")]

/-- Strictness in one layer meets a default type in the other, which is refused in every form. -/
theorem run_flat_across_layers :
    Table.Distinct strictOverrides ∧ Table.Distinct typedRaw ∧
      run Host.bare (.mapping true Layers.standardDefaults) (.mapping false typedRaw)
          (.mapping true strictOverrides) = ⟨[], .error (.config .strictWithDefault)⟩ ∧
      Layers.flat strictOverrides typedRaw =
        [(.text "strictScalars", .boolean true), (.integer 1, .text "plugin"),
          (.text "typesPrefix", .text "I"), (.text "defaultScalarType", .text "Date")] ∧
      run Host.bare (.mapping true Layers.standardDefaults)
          (.mapping false (Layers.flat strictOverrides typedRaw)) .null =
        run Host.bare (.mapping true Layers.standardDefaults) (.mapping false typedRaw)
          (.mapping true strictOverrides) ∧
      run Host.bare (.mapping true Layers.standardDefaults) .null
          (.mapping false (Layers.flat strictOverrides typedRaw)) =
        run Host.bare (.mapping true Layers.standardDefaults) (.mapping false typedRaw)
          (.mapping true strictOverrides) := by
  have hoverrides : Table.Distinct strictOverrides := by decide
  have hraw : Table.Distinct typedRaw := by decide
  have hflat := run_flat Host.bare (.mapping true Layers.standardDefaults) false true hoverrides
    hraw
  exact ⟨hoverrides, hraw, rfl, rfl, hflat⟩

end Resolve

end Nomenclature
