import Nomenclature.Proofs.NestedImports

/-!
# Entries that are null

An entry of a mapping that is null reads as one that is left out, wherever the first value that is
set decides. Where a default takes only the place of a missing entry, the null is read itself, and
it is refused. Here this is said of the readers of conventions, external fragments and imports, and
of an entry at any place inside their values.
-/

namespace Nomenclature

section

variable {α β : Type} {cause : ConfigFault} {step other : Except Fault α}

/-- A step fails with a fault of its own, or as another step does. -/
def FailsOr (cause : ConfigFault) (step other : Except Fault α) : Prop :=
  ∃ fault, step = .error fault ∧ (fault = .config cause ∨ other = .error fault)

namespace FailsOr

theorem refusal (cause : ConfigFault) (other : Except Fault α) :
    FailsOr cause (.error (.config cause)) other :=
  ⟨_, rfl, .inl rfl⟩

theorem bind (h : FailsOr cause step other) (next next' : α → Except Fault β) :
    FailsOr cause (step >>= next) (other >>= next') := by
  obtain ⟨fault, rfl, hfault⟩ := h
  refine ⟨fault, rfl, hfault.imp_right ?_⟩
  rintro rfl
  rfl

/-- What both steps do before makes no difference. -/
theorem bind_right (first : Except Fault α) {next next' : α → Except Fault β}
    (h : ∀ a, FailsOr cause (next a) (next' a)) :
    FailsOr cause (first >>= next) (first >>= next') := by
  cases first with
  | error fault => exact ⟨fault, rfl, .inr rfl⟩
  | ok a => exact h a

theorem map (h : FailsOr cause step other) (f : α → β) :
    FailsOr cause (step.map f) (other.map f) := by
  obtain ⟨fault, rfl, hfault⟩ := h
  refine ⟨fault, rfl, hfault.imp_right ?_⟩
  rintro rfl
  rfl

end FailsOr

end

namespace Entries

variable {entries : Entries} {name other : String}

/-- A null is found, whether its entry is there or left out. -/
theorem named_drop (hnull : Table.lookup? entries (.text other) = some .null) (name : String) :
    named (Table.drop entries (.text other)) name = named entries name := by
  by_cases hname : name = other
  · rw [hname, named_drop_self, named, getD, hnull, Option.getD_some]
  · exact getD_drop hname .null

theorem either_drop (hnull : Table.lookup? entries (.text other) = some .null)
    (first second : String) (otherwise : Value) :
    either (Table.drop entries (.text other)) first second otherwise =
      either entries first second otherwise := by
  rw [either, either, named_drop hnull, named_drop hnull]

theorem getD_of_null (hnull : Table.lookup? entries (.text name) = some .null)
    (otherwise : Value) : getD entries name otherwise = .null := by
  rw [getD, hnull, Option.getD_some]

end Entries

namespace Convention

variable {entries : Entries} {name : String}

theorem isKey_of_sameAs {key : Value} (hname : name ∈ keys) (h : key.sameAs (.text name) = true) :
    isKey key = true := by
  rw [Value.sameAs_text] at h
  rw [isKey, List.any_eq_true]
  exact ⟨name, hname, by rw [Value.sameText, h]; exact beq_self_eq_true _⟩

/-- An entry under a known key has no part in what is unknown. -/
theorem unknown_drop (hname : name ∈ keys) :
    ((Table.drop entries (.text name)).map (·.1)).filter (fun key => !isKey key) =
      (entries.map (·.1)).filter fun key => !isKey key := by
  rw [Table.drop, List.filter_map, List.filter_map, List.filter_filter]
  congr 1
  apply List.filter_congr
  intro entry _
  cases hsame : entry.1.sameAs (.text name) with
  | false => simp
  | true => simp [isKey_of_sameAs hname hsame]

/-- A strategy that is null is the standard one. -/
theorem ofEntries_drop (host : Host) (hname : name ∈ keys) (hother : underscoreKey ≠ name)
    (hnull : Table.lookup? entries (.text name) = some .null) :
    ofEntries host (Table.drop entries (.text name)) = ofEntries host entries := by
  simp only [ofEntries, unknown_drop hname, Entries.named_drop hnull, Entries.getD_drop hother]

/-- The policy for underscores may not be null. -/
theorem failsOr_ofEntries (host : Host)
    (hnull : Table.lookup? entries (.text underscoreKey) = some .null) :
    FailsOr (.expected .boolean ("namingConvention." ++ underscoreKey)) (ofEntries host entries)
      (ofEntries host (Table.drop entries (.text underscoreKey))) := by
  have hname : underscoreKey ∈ keys := by decide
  simp only [ofEntries, unknown_drop hname, Entries.getD_of_null hnull]
  -- Unknown keys are refused before, with the null and without it.
  cases Value.sorted? ((entries.map (·.1)).filter fun key => !isKey key) with
  | none => exact ⟨_, rfl, .inr rfl⟩
  | some unknown =>
      cases unknown with
      | nil => exact .bind (.refusal _ _) _ _
      | cons key rest => exact ⟨_, rfl, .inr rfl⟩

end Convention

/-- No part of an external fragment is told from a part that is left out if it is null. -/
theorem ExternalFragment.ofEntries_drop {entries : Entries} {name : String}
    (hnull : Table.lookup? entries (.text name) = some .null) (path : String) :
    ofEntries (Table.drop entries (.text name)) path = ofEntries entries path := by
  simp only [ofEntries, Entries.named_drop hnull, Entries.either_drop hnull]

namespace FragmentImport

variable {entries inner : Entries} {name : String}

theorem nested_drop (hnull : Table.lookup? entries (.text name) = some .null) (path : String) :
    nested (Table.drop entries (.text name)) path = nested entries path := by
  simp only [nested, Entries.named_drop hnull]

/-- The settings of an import for which a default takes the place of a missing entry only. -/
def directoryKeys : List String :=
  ["baseDir", "baseOutputDir", "outputPath"]

theorem parts_drop (hnull : Table.lookup? entries (.text name) = some .null)
    (hname : name ∉ directoryKeys) :
    parts (Table.drop entries (.text name)) inner = parts entries inner := by
  have hgetD {key : String} (hkey : key ∈ directoryKeys) :
      Entries.getD (Table.drop entries (.text name)) key (.text "") =
        Entries.getD entries key (.text "") := by
    apply Entries.getD_drop
    rintro rfl
    exact hname hkey
  simp only [parts, Entries.named_drop hnull, Entries.either_drop hnull]
  rw [hgetD (by decide), hgetD (by decide), hgetD (by decide)]

/-- What of an import is null and has no directory reads as what is left out. -/
theorem ofEntries_drop_of_null (hnull : Table.lookup? entries (.text name) = some .null)
    (hname : name ∉ directoryKeys) (path : String) :
    ofEntries (Table.drop entries (.text name)) path = ofEntries entries path := by
  simp only [ofEntries_eq, nested_drop hnull, parts_drop hnull hname]

/-- A directory may not be null. -/
theorem failsOr_ofEntries (hnull : Table.lookup? entries (.text name) = some .null)
    (hname : name ∈ directoryKeys) (path : String) :
    FailsOr (.expected .text (path ++ ("." ++ name))) (ofEntries entries path)
      (ofEntries (Table.drop entries (.text name)) path) := by
  rw [ofEntries_eq, ofEntries_eq, nested_drop hnull]
  refine .bind_right _ fun inner => ?_
  have hdrop {key : String} (hkey : key ≠ name) :
      Entries.getD (Table.drop entries (.text name)) key (.text "") =
        Entries.getD entries key (.text "") :=
    Entries.getD_drop hkey _
  simp only [ofParts, parts, Entries.named_drop hnull, Entries.either_drop hnull]
  -- The directories come after the namespace and the identifiers, in the order of their keys.
  refine .bind_right _ fun scope => .bind_right _ fun listed => .bind_right _ fun identifiers => ?_
  simp only [directoryKeys, List.mem_cons, List.not_mem_nil, or_false] at hname
  rcases hname with rfl | rfl | rfl
  · rw [Entries.getD_of_null hnull]
    exact .bind (.refusal _ _) _ _
  · rw [hdrop (by decide), Entries.getD_of_null hnull]
    exact .bind_right _ fun baseDir => .bind (.refusal _ _) _ _
  · rw [hdrop (by decide), hdrop (by decide), Entries.getD_of_null hnull]
    exact .bind_right _ fun baseDir => .bind_right _ fun baseOutputDir =>
      .bind (.refusal _ _) _ _

/-- A null in the nested section reads as what is left out, unless a default is asked for there. -/
theorem parts_drop_inner (hnull : Table.lookup? inner (.text name) = some .null)
    (hpath : name = "path" → (Entries.named entries "importPath").isNull = false)
    (hidentifiers : name = "identifiers" →
      (Entries.named entries "identifiers").isNull = false) :
    parts entries (Table.drop inner (.text name)) = parts entries inner := by
  have hgetD {key place : String} (otherwise : Value)
      (hset : name = key → (Entries.named entries place).isNull = false) :
      (Entries.named entries place).orElse
          (Entries.getD (Table.drop inner (.text name)) key otherwise) =
        (Entries.named entries place).orElse (Entries.getD inner key otherwise) := by
    by_cases hkey : name = key
    · rw [Value.orElse, Value.orElse, if_neg (by simp [hset hkey]), if_neg (by simp [hset hkey])]
    · rw [Entries.getD_drop (Ne.symm hkey)]
  simp only [parts, Entries.named_drop hnull]
  rw [hgetD _ hpath, hgetD _ hidentifiers]

/-- The path in the nested section may not be null if it is the one that is asked for. -/
theorem failsOr_ofParts_path (hnull : Table.lookup? inner (.text "path") = some .null)
    (hunset : (Entries.named entries "importPath").isNull = true) (path : String) :
    FailsOr (.expected .text (path ++ ".importSource.path")) (ofParts (parts entries inner) path)
      (ofParts (parts entries (Table.drop inner (.text "path"))) path) := by
  have hidentifiers : Entries.getD (Table.drop inner (.text "path")) "identifiers" (.list []) =
      Entries.getD inner "identifiers" (.list []) := Entries.getD_drop (by decide) _
  have himport : (Entries.named entries "importPath").orElse
      (Entries.getD inner "path" (.text "")) = .null := by
    rw [Value.orElse, if_pos hunset, Entries.getD_of_null hnull]
  simp only [ofParts, parts, Entries.named_drop hnull, hidentifiers, himport]
  refine .bind_right _ fun scope => .bind_right _ fun listed => .bind_right _ fun identifiers => ?_
  refine .bind_right _ fun baseDir => .bind_right _ fun baseOutputDir => ?_
  exact .bind_right _ fun outputPath => .bind (.refusal _ _) _ _

/-- Nor may the identifiers. -/
theorem failsOr_ofParts_identifiers
    (hnull : Table.lookup? inner (.text "identifiers") = some .null)
    (hunset : (Entries.named entries "identifiers").isNull = true) (path : String) :
    FailsOr (.expected .list path) (ofParts (parts entries inner) path)
      (ofParts (parts entries (Table.drop inner (.text "identifiers"))) path) := by
  have hlisted : (Entries.named entries "identifiers").orElse
      (Entries.getD inner "identifiers" (.list [])) = .null := by
    rw [Value.orElse, if_pos hunset, Entries.getD_of_null hnull]
  simp only [ofParts, parts, Entries.named_drop hnull, hlisted]
  exact .bind_right _ fun scope => .bind (.refusal _ _) _ _

end FragmentImport

/-! ## Places in a value -/

/-- A step into a value: to an item of a sequence, or to an entry of a mapping. -/
inductive Value.Step where
  | item (index : Nat)
  | entry (name : String)

namespace Table

variable {α : Type}

/-- A table with the first item under a key changed. -/
def change (f : α → α) (key : Value) : Table α → Table α
  | [] => []
  | (k, item) :: rest =>
    if k.sameAs key then (k, f item) :: rest else (k, item) :: change f key rest

end Table

namespace Value

/-- What a step leads to. -/
def child? (value : Value) : Step → Option Value
  | .item index => value.asItems?.bind (·[index]?)
  | .entry name => value.asEntries?.bind (Table.lookup? · (.text name))

/-- What several steps lead to. -/
def at? : List Step → Value → Option Value
  | [], value => some value
  | step :: rest, value => (value.child? step).bind (at? rest)

/-- A value with that changed to which a step leads. -/
def change (f : Value → Value) : Step → Value → Value
  | .item index, list items => list (items.modify index f)
  | .item index, tuple items => tuple (items.modify index f)
  | .entry name, mapping frozen entries => mapping frozen (Table.change f (.text name) entries)
  | _, value => value

/-- A mapping without the entry under a name. -/
def drop (name : String) : Value → Value
  | mapping frozen entries => mapping frozen (Table.drop entries (.text name))
  | value => value

/-- A value without the entry under a name in the mapping to which some steps lead. -/
def without (name : String) : List Step → Value → Value
  | [], value => value.drop name
  | step :: rest, value => value.change (without name rest) step

variable {value item found : Value} {index : Nat} {name : String}

theorem child?_entry_eq_some_iff : value.child? (.entry name) = some found ↔
    ∃ frozen entries, value = .mapping frozen entries ∧
      Table.lookup? entries (.text name) = some found := by
  cases value <;> simp [child?, asEntries?]

theorem child?_item_eq_some_iff : value.child? (.item index) = some item ↔
    ∃ items, value.asItems? = some items ∧ items[index]? = some item := by
  rw [child?, Option.bind_eq_some_iff]

theorem asItems?_change {items : List Value} (h : value.asItems? = some items)
    (f : Value → Value) (index : Nat) :
    (value.change f (.item index)).asItems? = some (items.modify index f) := by
  cases value with
  | list others =>
      obtain rfl := Option.some.inj h
      rfl
  | tuple others =>
      obtain rfl := Option.some.inj h
      rfl
  | _ => simp [asItems?] at h

/-- A value that stands under a name is null, if there is one at all. -/
def UnsetAt (steps : List Step) (value : Value) : Prop :=
  ∀ found, value.at? steps = some found → found.isNull = true

end Value

namespace Table

variable {α : Type} {f : α → α} {table : Table α} {key : Value}

theorem lookup?_change_self : lookup? (change f key table) key = (lookup? table key).map f := by
  induction table with
  | nil => rfl
  | cons entry rest ih =>
      rw [change, lookup?_cons]
      split
      · rename_i hsame
        rw [lookup?_cons, if_pos hsame]
        rfl
      · rename_i hsame
        rw [lookup?_cons, if_neg hsame, ih]

theorem lookup?_change_of_ne {name other : String} (h : name ≠ other) :
    lookup? (change f (.text other) table) (.text name) = lookup? table (.text name) := by
  induction table with
  | nil => rfl
  | cons entry rest ih =>
      rw [change, lookup?_cons]
      split
      · rename_i hsame
        have hother : ¬ entry.1.sameAs (.text name) = true := by
          rw [Value.sameAs_text] at hsame ⊢
          rw [hsame, Option.some.injEq]
          exact Ne.symm h
        rw [lookup?_cons, if_neg hother, if_neg hother]
      · rw [lookup?_cons, ih]

end Table

namespace Setting

variable {α : Type} {read : Value → String → Except Fault α} {f : Value → Value} {item : Value}
  {index : Nat} {path : String}

/-- A list is read as it was before if an item that is changed is. -/
theorem items_modify (hread : ∀ path, read (f item) path = read item path) {listed : List Value}
    (hitem : listed[index]? = some item) (first : Nat) :
    items read path first (listed.modify index f) = items read path first listed := by
  induction listed generalizing index first with
  | nil => cases hitem
  | cons head rest ih =>
      cases index with
      | zero =>
          obtain rfl : head = item := by simpa using hitem
          rw [List.modify_zero_cons, items, items, hread]
      | succ index =>
          rw [List.modify_succ_cons, items, items, ih (by simpa using hitem)]

/-- It fails as the item does, or as it fails once the item is changed. -/
theorem failsOr_items {cause : ConfigFault} {listed : List Value}
    (hitem : listed[index]? = some item) {first : Nat}
    (hread : FailsOr cause (read item (path ++ "." ++ Text.integer ↑(first + index)))
      (read (f item) (path ++ "." ++ Text.integer ↑(first + index)))) :
    FailsOr cause (items read path first listed)
      (items read path first (listed.modify index f)) := by
  induction listed generalizing index first with
  | nil => cases hitem
  | cons head rest ih =>
      cases index with
      | zero =>
          obtain rfl : head = item := by simpa using hitem
          exact .bind hread _ _
      | succ index =>
          have hplace : first + 1 + index = first + (index + 1) := by omega
          rw [← hplace] at hread
          refine .bind_right _ fun a => ?_
          exact .bind (ih (by simpa using hitem) hread) _ _

theorem listed_change {value : Value} (hitem : value.child? (.item index) = some item)
    (hread : ∀ path, read (f item) path = read item path) (write : List α → Value) :
    (list (value.change f (.item index)) path >>= fun listed =>
        (items read path 0 listed).map write) =
      list value path >>= fun listed => (items read path 0 listed).map write := by
  obtain ⟨listed, hlisted, hfound⟩ := Value.child?_item_eq_some_iff.1 hitem
  rw [list_eq_ok_iff.2 hlisted, list_eq_ok_iff.2 (Value.asItems?_change hlisted f index)]
  exact congrArg (Except.map write) (items_modify hread hfound 0)

theorem failsOr_listed {cause : ConfigFault} {value : Value}
    (hitem : value.child? (.item index) = some item)
    (hread : FailsOr cause (read item (path ++ "." ++ Text.integer index))
      (read (f item) (path ++ "." ++ Text.integer index))) (write : List α → Value) :
    FailsOr cause (list value path >>= fun listed => (items read path 0 listed).map write)
      (list (value.change f (.item index)) path >>= fun listed =>
        (items read path 0 listed).map write) := by
  obtain ⟨listed, hlisted, hfound⟩ := Value.child?_item_eq_some_iff.1 hitem
  rw [list_eq_ok_iff.2 hlisted, list_eq_ok_iff.2 (Value.asItems?_change hlisted f index)]
  have hplace : FailsOr cause (read item (path ++ "." ++ Text.integer ↑(0 + index)))
      (read (f item) (path ++ "." ++ Text.integer ↑(0 + index))) := by
    rw [Nat.zero_add]
    exact hread
  exact (failsOr_items hfound hplace).map write

end Setting

namespace FragmentImport

variable {entries inner : Entries} {frozen : Bool}

/-- An import whose nested section loses an entry. -/
theorem ofEntries_change (name : String)
    (hsection : Table.lookup? entries (.text nestedKey) = some (.mapping frozen inner))
    (path : String) :
    ofEntries entries path = ofParts (parts entries inner) path ∧
      ofEntries (Table.change (Value.drop name) (.text nestedKey) entries) path =
        ofParts (parts entries (Table.drop inner (.text name))) path := by
  have hgetD {key : String} (hkey : key ≠ nestedKey) (otherwise : Value) :
      Entries.getD (Table.change (Value.drop name) (.text nestedKey) entries) key otherwise =
        Entries.getD entries key otherwise := by
    rw [Entries.getD, Table.lookup?_change_of_ne hkey, Entries.getD]
  have hnested : (Entries.named entries nestedKey).asEntries? = some inner := by
    rw [Entries.named, Entries.getD, hsection]
    rfl
  have hnested' : (Entries.named (Table.change (Value.drop name) (.text nestedKey) entries)
      nestedKey).asEntries? = some (Table.drop inner (.text name)) := by
    rw [Entries.named, Entries.getD, Table.lookup?_change_self, hsection]
    rfl
  have hparts : parts (Table.change (Value.drop name) (.text nestedKey) entries)
      (Table.drop inner (.text name)) = parts entries (Table.drop inner (.text name)) := by
    simp (disch := decide) only [parts, Entries.named, Entries.either, hgetD]
  constructor
  · rw [ofEntries_eq, nested_of_asEntries? hnested]
    rfl
  · rw [ofEntries_eq, nested_of_asEntries? hnested', ← hparts]
    rfl

end FragmentImport

namespace SettingKey

/-- Where an entry of a mapping inside the value of a setting may be null: the steps to the mapping,
and the name of the entry. -/
inductive NullPlace : SettingKey → List Value.Step → String → Prop
  | convention {name : String} (hname : name ∈ Convention.keys) :
      NullPlace .namingConvention [] name
  | fragment (index : Nat) {name : String}
      (hname : name ∈ ["onType", "isExternal", "importFrom", "node"]) :
      NullPlace .externalFragments [.item index] name
  | fragmentImport (index : Nat) {name : String}
      (hname : name ∈ ["baseDir", "baseOutputDir", "outputPath", "importPath", "namespace",
        "identifiers", "typeImport", "typesImport", "importSource"]) :
      NullPlace .fragmentImports [.item index] name
  | nested (index : Nat) {name : String} (hname : name ∈ ["path", "namespace", "identifiers"]) :
      NullPlace .fragmentImports [.item index, .entry FragmentImport.nestedKey] name

/-- The places at which a null is refused in the value of a setting, and how. -/
inductive RefusesNull (value : Value) : SettingKey → List Value.Step → String → ConfigFault → Prop
  | underscore :
      RefusesNull value .namingConvention [] Convention.underscoreKey
        (.expected .boolean ("namingConvention." ++ Convention.underscoreKey))
  | directory (index : Nat) {name : String} (hname : name ∈ FragmentImport.directoryKeys) :
      RefusesNull value .fragmentImports [.item index] name
        (.expected .text ("fragmentImports" ++ "." ++ Text.integer index ++ ("." ++ name)))
  | path (index : Nat) (hunset : value.UnsetAt [.item index, .entry "importPath"]) :
      RefusesNull value .fragmentImports [.item index, .entry FragmentImport.nestedKey] "path"
        (.expected .text
          ("fragmentImports" ++ "." ++ Text.integer index ++ ".importSource.path"))
  | identifiers (index : Nat) (hunset : value.UnsetAt [.item index, .entry "identifiers"]) :
      RefusesNull value .fragmentImports [.item index, .entry FragmentImport.nestedKey]
        "identifiers" (.expected .list ("fragmentImports" ++ "." ++ Text.integer index))

/-- A null in the value of a setting reads as what is left out, unless it is refused; then the
setting fails so, or as it does without the null. -/
structure ReadsNull (host : Host) (key : SettingKey) (value : Value) (steps : List Value.Step)
    (name : String) : Prop where
  accepted : (∀ cause, ¬ RefusesNull value key steps name cause) →
    key.read host (value.without name steps) = key.read host value
  refused : ∀ cause, RefusesNull value key steps name cause →
    FailsOr cause (key.read host value) (key.read host (value.without name steps))

variable {value item : Value} {index : Nat} {steps : List Value.Step} {name : String}

theorem readsNull_convention (host : Host) (hname : name ∈ Convention.keys)
    (hnull : value.child? (.entry name) = some .null) :
    ReadsNull host .namingConvention value [] name := by
  obtain ⟨frozen, entries, rfl, hentry⟩ := Value.child?_entry_eq_some_iff.1 hnull
  constructor
  case accepted =>
    intro haccepted
    have hother : Convention.underscoreKey ≠ name := by
      rintro rfl
      exact haccepted _ .underscore
    exact congrArg (Except.map Convention.toValue)
      (Convention.ofEntries_drop host hname hother hentry)
  case refused =>
    intro cause hrefused
    cases hrefused
    exact (Convention.failsOr_ofEntries host hentry).map Convention.toValue

theorem readsNull_externalFragments (host : Host)
    (hitem : value.child? (.item index) = some item)
    (hnull : item.child? (.entry name) = some .null) :
    ReadsNull host .externalFragments value [.item index] name := by
  have hread (path : String) :
      ExternalFragment.ofValue (item.drop name) path = ExternalFragment.ofValue item path := by
    obtain ⟨frozen, entries, rfl, hentry⟩ := Value.child?_entry_eq_some_iff.1 hnull
    rw [Value.drop, ExternalFragment.ofValue, ExternalFragment.ofValue,
      ExternalFragment.ofEntries_drop hentry, Entries.named_drop hentry]
  refine ⟨fun _ => Setting.listed_change hitem hread _, ?_⟩
  intro cause hrefused
  cases hrefused

theorem readsNull_fragmentImports (host : Host)
    (hitem : value.child? (.item index) = some item)
    (hnull : item.child? (.entry name) = some .null) :
    ReadsNull host .fragmentImports value [.item index] name := by
  obtain ⟨frozen, entries, rfl, hentry⟩ := Value.child?_entry_eq_some_iff.1 hnull
  constructor
  case accepted =>
    intro haccepted
    have hname : name ∉ FragmentImport.directoryKeys := fun h => haccepted _ (.directory index h)
    exact Setting.listed_change hitem (FragmentImport.ofEntries_drop_of_null hentry hname) _
  case refused =>
    intro cause hrefused
    cases hrefused with
    | directory _ hname =>
        exact Setting.failsOr_listed hitem (FragmentImport.failsOr_ofEntries hentry hname _) _

theorem unsetAt_iff {frozen : Bool} {entries : Entries}
    (hitem : value.child? (.item index) = some (.mapping frozen entries)) :
    value.UnsetAt [.item index, .entry name] ↔ (Entries.named entries name).isNull = true := by
  have hplace : value.at? [.item index, .entry name] = Table.lookup? entries (.text name) := by
    rw [Value.at?, hitem]
    change (Table.lookup? entries (.text name)).bind some = _
    exact Option.bind_fun_some _
  rw [Value.UnsetAt, hplace, Entries.named, Entries.getD]
  cases Table.lookup? entries (.text name) <;> simp [Value.isNull]

theorem readsNull_nested (host : Host) {place : Value}
    (hitem : value.child? (.item index) = some item)
    (hplace : item.child? (.entry FragmentImport.nestedKey) = some place)
    (hnull : place.child? (.entry name) = some .null) :
    ReadsNull host .fragmentImports value [.item index, .entry FragmentImport.nestedKey] name := by
  obtain ⟨frozen, entries, rfl, hsection⟩ := Value.child?_entry_eq_some_iff.1 hplace
  obtain ⟨frozen', inner, rfl, hentry⟩ := Value.child?_entry_eq_some_iff.1 hnull
  have hread (path : String) := FragmentImport.ofEntries_change name hsection path
  constructor
  case accepted =>
    intro haccepted
    -- Where the null would be refused for a setting that is unset, that setting is set.
    have hset {key : String} (hrefused : value.UnsetAt [.item index, .entry key] →
        ∃ cause, RefusesNull value .fragmentImports
          [.item index, .entry FragmentImport.nestedKey] name cause) :
        (Entries.named entries key).isNull = false := by
      rw [← Bool.not_eq_true, ← unsetAt_iff hitem]
      intro hunset
      obtain ⟨cause, hcause⟩ := hrefused hunset
      exact haccepted cause hcause
    have hparts : FragmentImport.parts entries (Table.drop inner (.text name)) =
        FragmentImport.parts entries inner := by
      apply FragmentImport.parts_drop_inner hentry
      · rintro rfl
        exact hset fun hunset => ⟨_, .path index hunset⟩
      · rintro rfl
        exact hset fun hunset => ⟨_, .identifiers index hunset⟩
    refine Setting.listed_change hitem (fun path => ?_) _
    calc
      FragmentImport.ofEntries (Table.change (Value.drop name) (.text FragmentImport.nestedKey)
          entries) path =
          FragmentImport.ofParts (FragmentImport.parts entries (Table.drop inner (.text name)))
            path := (hread path).2
      _ = FragmentImport.ofParts (FragmentImport.parts entries inner) path := by rw [hparts]
      _ = FragmentImport.ofEntries entries path := (hread path).1.symm
  case refused =>
    intro cause hrefused
    refine Setting.failsOr_listed hitem ?_ _
    change FailsOr cause (FragmentImport.ofEntries entries _) (FragmentImport.ofEntries
      (Table.change (Value.drop name) (.text FragmentImport.nestedKey) entries) _)
    rw [(hread _).1, (hread _).2]
    cases hrefused with
    | path _ hunset =>
        exact FragmentImport.failsOr_ofParts_path hentry ((unsetAt_iff hitem).1 hunset) _
    | identifiers _ hunset =>
        exact FragmentImport.failsOr_ofParts_identifiers hentry ((unsetAt_iff hitem).1 hunset) _

/-- At each of the places. -/
theorem readsNull (host : Host) {key : SettingKey} (hplace : NullPlace key steps name)
    (hnull : value.at? (steps ++ [.entry name]) = some .null) :
    ReadsNull host key value steps name := by
  cases hplace with
  | convention hname =>
      have hchild : value.child? (.entry name) = some .null := by simpa [Value.at?] using hnull
      exact readsNull_convention host hname hchild
  | fragment index hname =>
      obtain ⟨item, hitem, hchild⟩ : ∃ item, value.child? (.item index) = some item ∧
          item.child? (.entry name) = some .null := by
        simpa [Value.at?, Option.bind_eq_some_iff] using hnull
      exact readsNull_externalFragments host hitem hchild
  | fragmentImport index hname =>
      obtain ⟨item, hitem, hchild⟩ : ∃ item, value.child? (.item index) = some item ∧
          item.child? (.entry name) = some .null := by
        simpa [Value.at?, Option.bind_eq_some_iff] using hnull
      exact readsNull_fragmentImports host hitem hchild
  | nested index hname =>
      obtain ⟨item, hitem, place, hplace, hchild⟩ : ∃ item, value.child? (.item index) = some item ∧
          ∃ place, item.child? (.entry FragmentImport.nestedKey) = some place ∧
            place.child? (.entry name) = some .null := by
        simpa [Value.at?, Option.bind_eq_some_iff] using hnull
      exact readsNull_nested host hitem hplace hchild

end SettingKey

end Nomenclature
