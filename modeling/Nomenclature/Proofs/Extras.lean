import Nomenclature.Proofs.StandardResolution

/-!
# What a table of defaults leaves for plugins

A table of defaults may hold more than the twenty keys that are read. Whatever it holds is taken for
known, so what a layer sets under a further key of the table goes neither into a field nor into the
extras. Under every key that the table does not hold, the extras have, frozen, what the first layer
sets that sets the key at all; no key that is read is among them.
-/

namespace Nomenclature.Resolve

/-- Extras that layers leave over a table of defaults. -/
structure LeftOver (defaults : Entries) (raw overrides : Value) (extras : Entries) : Prop where
  /-- They hold what the layers set under the keys that the table does not hold, frozen. -/
  lookup?_eq : ∃ upper lower, Layers.entries (Layers.orEmpty overrides) = .ok upper ∧
    Layers.entries (Layers.orEmpty raw) = .ok lower ∧ ∀ key, Table.lookup? extras key =
      if Table.hasKey defaults key then none
      else ((Layers.set? upper key).or (Layers.set? lower key)).map Value.freeze
  /-- They hold none of the keys that are read. -/
  unread : ∀ key : SettingKey, Table.lookup? extras (.text key.name) = none
  /-- They hold no key twice. -/
  distinct : Table.Distinct extras

/-- Whatever table of defaults sets the keys that are read, the extras of a configuration hold what
the layers set under the keys that the table does not hold, and nothing else. -/
theorem leftOver_of_run (host : Host) (frozen : Bool) {defaults : Entries} {raw overrides : Value}
    {c : Configuration}
    (hdefaults : ∀ key : SettingKey, (Layers.set? defaults (.text key.name)).isSome = true)
    (h : (run host (.mapping frozen defaults) raw overrides).outcome = .ok c) :
    LeftOver defaults raw overrides c.extras := by
  obtain ⟨upper, lower, known, hupper, hlower, hknown, hmerged⟩ := entries_of_run h
  obtain rfl : known = defaults := by
    rw [Layers.entries_eq_ok_iff] at hknown
    exact (Option.some.inj hknown).symm
  have hextras := ((run_eq_ok_iff hmerged c).1 h).2.2.2
  have hlookup (key : Value) : Table.lookup? c.extras key =
      if Table.hasKey known key then none
      else ((Layers.set? upper key).or (Layers.set? lower key)).map Value.freeze := by
    rw [hextras, Value.freezeEntries_eq_map, Table.lookup?_map, lookup?_extras_mapping,
      Layers.lookup?_union]
    cases hkey : Table.hasKey known key with
    | true => rfl
    | false =>
        have hunset := Layers.set?_eq_none_of_hasKey hkey
        cases hfirst : Layers.set? upper key <;> cases hsecond : Layers.set? lower key <;>
          simp [hfirst, hsecond, hunset]
  constructor
  case lookup?_eq => exact ⟨upper, lower, hupper, hlower, hlookup⟩
  case unread =>
    intro key
    have hknown : Table.hasKey known (.text key.name) = true := by
      by_contra habsent
      rw [Bool.not_eq_true] at habsent
      have hset := hdefaults key
      rw [Layers.set?_eq_none_of_hasKey habsent] at hset
      exact Bool.noConfusion hset
    rw [hlookup, if_pos hknown]
  case distinct =>
    rw [hextras, Value.freezeEntries_eq_map]
    exact List.pairwise_map.2 (List.Pairwise.filter _ (Layers.distinct_union _))

/-- The standard table of defaults with a key of a plugin. -/
def pluginDefaults : Entries :=
  Layers.standardDefaults ++ [(.text "pluginKey", .integer 1)]

/-- A plugin sets its own key, which the table holds, and another one, which the table lacks and an
override leaves alone. -/
theorem leftOver_of_run_plugin :
    (∀ key : SettingKey, (Layers.set? pluginDefaults (.text key.name)).isSome = true) ∧
      ∃ c, (run Host.bare (.mapping false pluginDefaults)
          (.mapping false [(.text "pluginKey", .integer 2), (.text "other", .list [.integer 3])])
          (.mapping false [(.text "other", .null)])).outcome = .ok c ∧
        LeftOver pluginDefaults
          (.mapping false [(.text "pluginKey", .integer 2), (.text "other", .list [.integer 3])])
          (.mapping false [(.text "other", .null)]) c.extras := by
  have hdefaults : ∀ key : SettingKey,
      (Layers.set? pluginDefaults (.text key.name)).isSome = true := by
    intro key
    cases key <;> decide
  exact ⟨hdefaults, _, rfl, leftOver_of_run Host.bare false hdefaults rfl⟩

/-- What is set under a key that is not read is lost if the table of defaults holds the key. -/
theorem lookup?_extras_eq_none_of_plugin :
    (∀ key : SettingKey, (Layers.set? pluginDefaults (.text key.name)).isSome = true) ∧
      "pluginKey" ∉ SettingKey.all.map SettingKey.name ∧
      ∃ c, (run Host.bare (.mapping false pluginDefaults)
          (.mapping false [(.text "pluginKey", .integer 2)]) .null).outcome = .ok c ∧
        Table.lookup? c.extras (.text "pluginKey") = none := by
  refine ⟨?_, by decide, _, rfl, rfl⟩
  intro key
  cases key <;> decide

end Nomenclature.Resolve
