import Nomenclature.Proofs.ConfiguredScalars
import Nomenclature.Proofs.DataResolution
import Nomenclature.Proofs.Reordering
import Nomenclature.Sorting.Lemmas

/-!
# Reading reordered values

Every reader is run twice, on two values that differ by the order of entries. Both runs fail, or both
succeed with results that are the same or interchangeable. The faults need not be the same, since a
fault may show the value that is refused, or be that of the first entry which is.
-/

namespace Nomenclature

/-- Two steps that both fail, or both succeed with related results. -/
inductive Concord {α β : Type} (R : α → β → Prop) : Except Fault α → Except Fault β → Prop
  | ok {a : α} {b : β} (h : R a b) : Concord R (.ok a) (.ok b)
  | error (fault fault' : Fault) : Concord R (.error fault) (.error fault')

namespace Concord

variable {α β γ δ : Type} {R : α → β → Prop} {S : γ → δ → Prop}

theorem refl {R : α → α → Prop} (hR : ∀ a, R a a) (step : Except Fault α) :
    Concord R step step := by
  cases step with
  | error fault => exact .error fault fault
  | ok a => exact .ok (hR a)

theorem of_eq {step step' : Except Fault α} (h : step = step') : Concord Eq step step' :=
  h ▸ .refl (fun _ => rfl) step

theorem bind {step : Except Fault α} {step' : Except Fault β} {next : α → Except Fault γ}
    {next' : β → Except Fault δ} (hstep : Concord R step step')
    (hnext : ∀ a b, R a b → Concord S (next a) (next' b)) :
    Concord S (step >>= next) (step' >>= next') := by
  cases hstep with
  | ok h => exact hnext _ _ h
  | error fault fault' => exact .error fault fault'

/-- Where both steps come to one result, only what follows is to be compared. -/
theorem bind_eq {step step' : Except Fault α} {next : α → Except Fault γ}
    {next' : α → Except Fault δ} (hstep : Concord Eq step step')
    (hnext : ∀ a, Concord S (next a) (next' a)) : Concord S (step >>= next) (step' >>= next') :=
  hstep.bind fun a _ h => h ▸ hnext a

theorem imp {R' : α → β → Prop} {step : Except Fault α} {step' : Except Fault β}
    (hstep : Concord R step step') (h : ∀ a b, R a b → R' a b) : Concord R' step step' := by
  cases hstep with
  | ok hrel => exact .ok (h _ _ hrel)
  | error fault fault' => exact .error fault fault'

theorem map {step : Except Fault α} {step' : Except Fault β} {f : α → γ} {g : β → δ}
    (hstep : Concord R step step') (hmap : ∀ a b, R a b → S (f a) (g b)) :
    Concord S (step.map f) (step'.map g) := by
  cases hstep with
  | ok h => exact .ok (hmap _ _ h)
  | error fault fault' => exact .error fault fault'

theorem exists_ok_iff {step : Except Fault α} {step' : Except Fault β}
    (h : Concord R step step') : (∃ a, step = .ok a) ↔ ∃ b, step' = .ok b := by
  cases h with
  | ok => exact iff_of_true ⟨_, rfl⟩ ⟨_, rfl⟩
  | error => exact iff_of_false nofun nofun

/-- Steps that succeed together are compared where they do. -/
theorem of_exists_iff {step : Except Fault α} {step' : Except Fault β}
    (hexists : (∃ a, step = .ok a) ↔ ∃ b, step' = .ok b)
    (h : ∀ a b, step = .ok a → step' = .ok b → R a b) : Concord R step step' := by
  cases step with
  | error fault =>
      cases step' with
      | error fault' => exact .error fault fault'
      | ok b =>
          obtain ⟨a, ha⟩ := hexists.2 ⟨b, rfl⟩
          cases ha
  | ok a =>
      cases step' with
      | error fault' =>
          obtain ⟨b, hb⟩ := hexists.1 ⟨a, rfl⟩
          cases hb
      | ok b => exact .ok (h a b rfl rfl)

theorem rel_of_eq_ok {step : Except Fault α} {step' : Except Fault β} {a : α} {b : β}
    (h : Concord R step step') (ha : step = .ok a) (hb : step' = .ok b) : R a b := by
  cases h with
  | ok h =>
      obtain rfl := Except.ok.inj ha
      obtain rfl := Except.ok.inj hb
      exact h
  | error => cases ha

end Concord

open Value (Reordered Interchangeable)

/-- A reader that refuses lists comes to the same on reordered values if it does on mappings that
hold the same under each name. -/
theorem Value.Reordered.concord {α : Type} {R : α → α → Prop} {v w : Value} (h : v.Reordered w)
    (read : Value → Except Fault α) (hrefl : ∀ a, R a a)
    (hlist : ∀ items, ∃ fault, read (.list items) = .error fault)
    (hmapping : ∀ frozen entries others, Table.AreNamed entries → Table.AreNamed others →
      Entries.Reordered entries others →
        Concord R (read (.mapping frozen entries)) (read (.mapping frozen others))) :
    Concord R (read v) (read w) := by
  rcases h.inversion with rfl | ⟨items, others, rfl, rfl, -⟩ |
    ⟨frozen, entries, others, rfl, rfl, hnamed, hnamed', hentries⟩
  · exact .refl hrefl (read v)
  · obtain ⟨fault, hfault⟩ := hlist items
    obtain ⟨fault', hfault'⟩ := hlist others
    rw [hfault, hfault']
    exact .error fault fault'
  · exact hmapping frozen entries others hnamed hnamed' hentries

namespace Setting

variable {v w : Value}

theorem boolean_eq_of_reordered (h : v.Reordered w) (path : String) :
    boolean v path = boolean w path := by
  rcases h.inversion with rfl | ⟨items, others, rfl, rfl, -⟩ |
    ⟨frozen, entries, others, rfl, rfl, -⟩ <;> rfl

theorem text_eq_of_reordered (h : v.Reordered w) (path : String) :
    text v path = text w path := by
  rw [text, text, h.asText?_eq]

theorem concord_boolean (h : v.Reordered w) (path : String) :
    Concord Eq (boolean v path) (boolean w path) :=
  .of_eq (boolean_eq_of_reordered h path)

theorem concord_text (h : v.Reordered w) (path : String) :
    Concord Eq (text v path) (text w path) :=
  .of_eq (text_eq_of_reordered h path)

theorem concord_list (h : v.Reordered w) (path : String) :
    Concord (List.Forall₂ Reordered) (list v path) (list w path) := by
  rcases h.inversion with rfl | ⟨items, others, rfl, rfl, hitems⟩ |
    ⟨frozen, entries, others, rfl, rfl, -⟩
  · exact .refl (fun items => List.forall₂_same.2 fun item _ => .same item) _
  · exact .ok hitems
  · exact .error _ _

/-- Items are read one by one, each at its place. -/
theorem concord_items {α : Type} {read : Value → String → Except Fault α} {R : α → α → Prop}
    (hread : ∀ v w, Reordered v w → ∀ path, Concord R (read v path) (read w path))
    {items others : List Value} (h : List.Forall₂ Reordered items others) (path : String)
    (index : Nat) :
    Concord (List.Forall₂ R) (Setting.items read path index items)
      (Setting.items read path index others) := by
  induction h generalizing index with
  | nil => exact .ok .nil
  | cons hfirst _ ih =>
      refine (hread _ _ hfirst _).bind fun first first' hfirst => ?_
      refine (ih (index + 1)).bind fun rest rest' hrest => ?_
      exact .ok (.cons hfirst hrest)

/-- The same of a setting that is a list of items. -/
theorem concord_listed {α : Type} {read : Value → String → Except Fault α} {write : α → Value}
    (hread : ∀ v w, Reordered v w → ∀ path,
      Concord (fun a b => Interchangeable (write a) (write b)) (read v path) (read w path))
    (h : v.Reordered w) (path : String) :
    Concord Interchangeable
      (list v path >>= fun listed =>
        (items read path 0 listed).map fun found => .tuple (found.map write))
      (list w path >>= fun listed =>
        (items read path 0 listed).map fun found => .tuple (found.map write)) := by
  refine (concord_list h path).bind fun listed listed' hlisted => ?_
  refine (concord_items hread hlisted path 0).map fun found found' hfound => ?_
  apply Interchangeable.tuple
  rw [List.forall₂_map_left_iff, List.forall₂_map_right_iff]
  exact hfound

end Setting

namespace ScalarTypes

variable {v w : Value} {entries others : Entries}

theorem concord_ofEntries (h : Entries.Reordered entries others) (path : String) :
    Concord Eq (ofEntries entries path) (ofEntries others path) := by
  have hinput := h.named Direction.input.tag
  have houtput := h.named Direction.output.tag
  simp only [ofEntries, hinput.isNull_eq, houtput.isNull_eq]
  split
  · exact .error _ _
  · refine (Setting.concord_text (hinput.orElse houtput) _).bind_eq fun input => ?_
    refine (Setting.concord_text (houtput.orElse (.same _)) _).bind_eq fun output => ?_
    exact .ok rfl

theorem concord_ofValue (h : v.Reordered w) (path : String) :
    Concord Eq (ofValue v path) (ofValue w path) :=
  h.concord (ofValue · path) (fun _ => rfl) (fun _ => ⟨_, rfl⟩)
    fun _ _ _ _ _ hentries => concord_ofEntries hentries path

end ScalarTypes

namespace ScalarTable

variable {v w : Value} {known table : ScalarTable} {entries others : Entries}

/-- Entries can be laid over a table exactly if each of them can be read. -/
theorem exists_overlay_iff (known : ScalarTable) (entries : Entries) :
    (∃ table, overlay known entries = .ok table) ↔ ∀ entry ∈ entries, ∃ types,
      ScalarTypes.ofValue entry.2 ("scalars." ++ entry.1.displayed) = .ok types := by
  induction entries generalizing known with
  | nil => exact iff_of_true ⟨known, rfl⟩ (by simp)
  | cons entry rest ih =>
      rw [List.forall_mem_cons]
      constructor
      · rintro ⟨table, h⟩
        obtain ⟨types, htypes, hrest⟩ := bind_eq_ok_iff.1 h
        exact ⟨⟨types, htypes⟩, (ih _).1 ⟨table, hrest⟩⟩
      · rintro ⟨⟨types, htypes⟩, hrest⟩
        obtain ⟨table, htable⟩ := (ih (Table.put entry.1 types known)).2 hrest
        exact ⟨table, bind_eq_ok_iff.2 ⟨types, htypes, htable⟩⟩

/-- Types that are read from reordered entries are the same, at whatever path: a path shows in faults
only. -/
theorem types_eq_of_reordered (h : v.Reordered w) {path path' : String} {types types' : ScalarTypes}
    (hv : ScalarTypes.ofValue v path = .ok types) (hw : ScalarTypes.ofValue w path' = .ok types') :
    types = types' := by
  have hgiven (direction : Direction) :
      ScalarTypes.given? direction v = ScalarTypes.given? direction w := by
    rcases h.inversion with rfl | ⟨items, others, rfl, rfl, -⟩ |
      ⟨frozen, entries, others, rfl, rfl, -, -, hentries⟩
    · rfl
    · rfl
    · have hside := (hentries.named direction.tag).orElse
        (hentries.named direction.opposite.tag)
      rw [ScalarTypes.given?, ScalarTypes.given?, hside.asText?_eq]
  have htoward (direction : Direction) : types.toward direction = types'.toward direction := by
    have hv := ScalarTypes.given?_of_ofValue hv direction
    have hw := ScalarTypes.given?_of_ofValue hw direction
    rw [← hgiven, hv] at hw
    exact Option.some.inj hw
  obtain ⟨input, output⟩ := types
  obtain ⟨input', output'⟩ := types'
  exact congrArg₂ ScalarTypes.mk (htoward .input) (htoward .output)

/-- Tables that hold the same types under each name are interchangeable. -/
theorem interchangeable_toValue {other : ScalarTable} (htable : Table.AreNamed table)
    (hother : Table.AreNamed other)
    (h : ∀ name, Table.lookup? table (.text name) = Table.lookup? other (.text name)) :
    Interchangeable table.toValue other.toValue := by
  refine .mapping (htable.map _) (hother.map _) fun name => ?_
  rw [Table.lookup?_map, Table.lookup?_map, h]
  cases Table.lookup? other (.text name) with
  | none => exact .none
  | some types => exact .some (.refl _)

/-- Whether entries can be laid over a table is no matter of their order. -/
theorem exists_overlay_iff_of_reordered (hentries : Table.AreNamed entries)
    (hothers : Table.AreNamed others) (h : Entries.Reordered entries others) :
    (∃ table, overlay builtin entries = .ok table) ↔
      ∃ table, overlay builtin others = .ok table := by
  rw [exists_overlay_iff, exists_overlay_iff]
  refine h.forall_iff hentries hothers fun name value other hreordered => ?_
  exact (ScalarTypes.concord_ofValue hreordered _).exists_ok_iff

/-- The tables have their entries in the order in which they were laid over, and agree name by name:
each name has the types read from what stands under it, or those it had before. -/
theorem concord_overlay (hentries : Table.AreNamed entries) (hothers : Table.AreNamed others)
    (h : Entries.Reordered entries others) :
    Concord (fun table other => Interchangeable table.toValue other.toValue)
      (overlay builtin entries) (overlay builtin others) := by
  refine .of_exists_iff (exists_overlay_iff_of_reordered hentries hothers h) ?_
  intro table other htable hother
  refine interchangeable_toValue (areNamed_overlay areNamed_builtin hentries.names htable)
    (areNamed_overlay areNamed_builtin hothers.names hother) fun name => ?_
  have hrel := h name
  cases hvalue : Table.lookup? entries (.text name) with
  | none =>
      cases hvalue' : Table.lookup? others (.text name) with
      | none => rw [lookup?_overlay_of_none htable hvalue, lookup?_overlay_of_none hother hvalue']
      | some value' => simp [hvalue, hvalue'] at hrel
  | some value =>
      obtain ⟨value', hvalue', hreordered⟩ := exists_of_rel_some (hvalue ▸ hrel)
      obtain ⟨path, types, hread, hfound⟩ := lookup?_overlay_of_some hentries.distinct htable hvalue
      obtain ⟨path', types', hread', hfound'⟩ :=
        lookup?_overlay_of_some hothers.distinct hother hvalue'
      rw [hfound, hfound', types_eq_of_reordered hreordered hread hread']

theorem concord_ofValue (h : v.Reordered w) :
    Concord (fun table other => Interchangeable table.toValue other.toValue) (ofValue v)
      (ofValue w) :=
  h.concord ofValue (fun table => .refl table.toValue) (fun _ => ⟨_, rfl⟩)
    fun _ _ _ hnamed hnamed' hentries => concord_overlay hnamed hnamed' hentries

end ScalarTable

/-- Values that can be put in order are all there once they are. -/
theorem Value.perm_of_sorted? {values ordered : List Value} (h : sorted? values = some ordered) :
    ordered.Perm values := by
  rw [sorted?] at h
  split at h
  · obtain rfl := Option.some.inj h
    exact sortedBy_perm _ values
  · exact Sorting.perm_of_sortedBy? h

namespace Convention

variable {host : Host} {v w : Value} {entries others : Entries}

theorem concord_resolveValue (h : v.Reordered w) :
    Concord Eq (Strategy.resolveValue host v) (Strategy.resolveValue host w) :=
  h.concord (Strategy.resolveValue host) (fun _ => rfl) (fun _ => ⟨_, rfl⟩)
    fun _ _ _ _ _ _ => .error _ _

theorem concord_ofParts {types types' enums enums' : Value} (htypes : types.Reordered types')
    (henums : enums.Reordered enums') (underscore : Value) :
    Concord Eq (ofParts host types enums underscore) (ofParts host types' enums' underscore) := by
  refine (concord_resolveValue htypes).bind_eq fun first => ?_
  exact (concord_resolveValue henums).bind_eq fun second => .ok rfl

/-- Keys that a convention does not have are refused. -/
theorem exists_error_of_unknown (host : Host) (h : ¬ ∀ entry ∈ entries, isKey entry.1 = true) :
    ∃ fault, ofEntries host entries = .error fault := by
  simp only [ofEntries]
  split
  · exact ⟨_, rfl⟩
  · exact ⟨_, rfl⟩
  · rename_i hsorted
    have hnone := List.nil_perm.1 (Value.perm_of_sorted? hsorted)
    exact absurd (by simpa [List.filter_eq_nil_iff] using hnone) h

/-- Where all keys are those of a convention, it is read from what stands under them. -/
theorem ofEntries_of_known (hknown : ∀ entry ∈ entries, isKey entry.1 = true) :
    ofEntries host entries =
      (Setting.boolean (Entries.getD entries underscoreKey (.boolean false))
        ("namingConvention." ++ underscoreKey) >>= fun underscore =>
          ofParts host
            ((Entries.named entries NameCategory.typeNames.tag).orElse Strategy.standard.toValue)
            ((Entries.named entries NameCategory.enumValues.tag).orElse Strategy.standard.toValue)
            (.boolean underscore)) := by
  have hnone : ((entries.map (·.1)).filter fun key => !isKey key) = [] := by
    simpa [List.filter_eq_nil_iff] using hknown
  simp only [ofEntries, hnone]
  rfl

theorem concord_ofEntries (hentries : Table.AreNamed entries) (hothers : Table.AreNamed others)
    (h : Entries.Reordered entries others) :
    Concord Eq (ofEntries host entries) (ofEntries host others) := by
  have hkeys := h.forall_iff (P := fun entry => isKey entry.1 = true) hentries hothers
    fun _ _ _ _ => Iff.rfl
  -- Unknown keys come first: they are refused whether or not the rest could be read.
  by_cases hknown : ∀ entry ∈ entries, isKey entry.1 = true
  · rw [ofEntries_of_known hknown, ofEntries_of_known (hkeys.1 hknown)]
    have hstrategy (category : NameCategory) :=
      (h.named category.tag).orElse (.same Strategy.standard.toValue)
    refine (Setting.concord_boolean (h.getD underscoreKey _) _).bind_eq fun underscore => ?_
    exact concord_ofParts (hstrategy .typeNames) (hstrategy .enumValues) (.boolean underscore)
  · obtain ⟨fault, hfault⟩ := exists_error_of_unknown host hknown
    obtain ⟨fault', hfault'⟩ := exists_error_of_unknown host (mt hkeys.2 hknown)
    rw [hfault, hfault']
    exact .error fault fault'

theorem concord_ofValue (h : v.Reordered w) :
    Concord Eq (ofValue host v) (ofValue host w) :=
  h.concord (ofValue host) (fun _ => rfl) (fun _ => ⟨_, rfl⟩)
    fun _ _ _ hnamed hnamed' hentries => concord_ofEntries hnamed hnamed' hentries

end Convention

/-- A fragment keeps its node and its source as they are written, so both may be reordered. -/
theorem ExternalFragment.concord_ofValue {v w : Value} (h : v.Reordered w) (path : String) :
    Concord (fun fragment other => Interchangeable fragment.toValue other.toValue) (ofValue v path)
      (ofValue w path) := by
  refine h.concord (ofValue · path) (fun fragment => .refl fragment.toValue) (fun _ => ⟨_, rfl⟩)
    fun frozen entries others _ _ hentries => ?_
  have hname := hentries.named "name"
  simp only [ofValue, hname.isTruthy_eq]
  split
  · refine (Setting.concord_text hname _).bind_eq fun name => ?_
    refine (Setting.concord_text (hentries.either _ _ _) _).bind_eq fun onType => ?_
    refine (Setting.concord_boolean (hentries.either _ _ _) _).bind_eq fun isExternal => ?_
    have hnode := (hentries.named "node").interchangeable
    have himportFrom := (hentries.either "importFrom" "import_from" .null).interchangeable
    exact .ok (.record rfl rfl rfl (.cons (.refl _) (.cons (.refl _) (.cons hnode
      (.cons (.refl _) (.cons himportFrom .nil))))))
  · exact .error _ _

/-- The kind of an identifier is one of two texts, so nothing of an identifier can be reordered. -/
theorem ImportedIdentifier.concord_ofValue {v w : Value} (h : v.Reordered w) (path : String) :
    Concord Eq (ofValue v path) (ofValue w path) := by
  refine h.concord (ofValue · path) (fun _ => rfl) (fun _ => ⟨_, rfl⟩)
    fun frozen entries others _ _ hentries => ?_
  simp only [ofValue]
  rcases (hentries.named "kind").inversion with hsame | ⟨items, items', hitems, hitems', -⟩ |
    ⟨frozen, inner, inner', hinner, hinner', -⟩
  · rw [hsame]
    split
    · exact (Setting.concord_text (hentries.named "name") _).bind_eq fun name => .ok rfl
    · exact .error _ _
  · rw [hitems, hitems']
    exact .error _ _
  · rw [hinner, hinner']
    exact .error _ _

namespace FragmentImport

variable {v w : Value} {entries others : Entries}

theorem concord_nested (h : Entries.Reordered entries others) (path : String) :
    Concord Entries.Reordered (nested entries path) (nested others path) := by
  have hplace := h.named "importSource"
  simp only [nested, hplace.isTruthy_eq]
  split
  · rcases hplace.inversion with hsame | ⟨items, others, hitems, hothers, -⟩ |
      ⟨frozen, inner, inner', hinner, hinner', -, -, hreordered⟩
    · rw [hsame]
      exact .refl .refl _
    · rw [hitems, hothers]
      exact .error _ _
    · rw [hinner, hinner']
      exact .ok hreordered
  · exact .ok (.refl [])

theorem concord_readScope (h : v.Reordered w) (path : String) :
    Concord Eq (readScope v path) (readScope w path) := by
  rw [readScope, readScope, h.isNull_eq, Setting.text_eq_of_reordered h]
  exact .of_eq rfl

theorem concord_ofEntries (h : Entries.Reordered entries others) (path : String) :
    Concord Eq (ofEntries entries path) (ofEntries others path) := by
  have hgetD (name : String) (otherwise : Value) (path : String) :=
    Setting.concord_text (h.getD name otherwise) path
  rw [ofEntries_eq, ofEntries_eq]
  refine (concord_nested h path).bind fun inner inner' hinner => ?_
  have hscope : Concord Eq (readScope (parts entries inner).scope path)
      (readScope (parts others inner').scope path) :=
    concord_readScope ((h.named "namespace").orElse (hinner.named "namespace")) path
  refine hscope.bind_eq fun scope => ?_
  refine (Setting.concord_list ((h.named _).orElse (hinner.getD _ _)) _).bind
    fun listed listed' hlisted => ?_
  refine (Setting.concord_items (fun _ _ => ImportedIdentifier.concord_ofValue) hlisted _ 0).bind
    fun identifiers identifiers' hidentifiers => ?_
  obtain rfl : identifiers = identifiers' := List.forall₂_eq_eq_eq ▸ hidentifiers
  refine (hgetD "baseDir" _ _).bind_eq fun baseDir => ?_
  refine (hgetD "baseOutputDir" _ _).bind_eq fun baseOutputDir => ?_
  refine (hgetD "outputPath" _ _).bind_eq fun outputPath => ?_
  refine (Setting.concord_text ((h.named _).orElse (hinner.getD _ _)) _).bind_eq
    fun importPath => ?_
  exact (Setting.concord_boolean (h.either _ _ _) _).bind_eq fun typeImport => .ok rfl

theorem concord_ofValue (h : v.Reordered w) (path : String) :
    Concord Eq (ofValue v path) (ofValue w path) :=
  h.concord (ofValue · path) (fun _ => rfl) (fun _ => ⟨_, rfl⟩)
    fun _ _ _ _ _ hentries => concord_ofEntries hentries path

end FragmentImport

namespace Resolve

variable {v w : Value}

theorem concord_defaultScalarType (h : v.Reordered w) :
    Concord Eq (defaultScalarType v) (defaultScalarType w) := by
  rw [defaultScalarType, defaultScalarType, Setting.text_eq_of_reordered h]
  exact .of_eq rfl

theorem concord_fragmentTyping (h : v.Reordered w) :
    Concord Eq (fragmentTyping v) (fragmentTyping w) := by
  rw [fragmentTyping, fragmentTyping, h.asText?_eq]
  split
  · exact .ok rfl
  · exact .error _ _

end Resolve

/-- Whatever the key, reordered values are both refused or read as interchangeable fields. -/
theorem SettingKey.concord_read (host : Host) (key : SettingKey) {v w : Value}
    (h : v.Reordered w) : Concord Interchangeable (key.read host v) (key.read host w) := by
  have hmap {α : Type} {step step' : Except Fault α} (hstep : Concord Eq step step')
      (encode : α → Value) : Concord Interchangeable (step.map encode) (step'.map encode) :=
    hstep.map fun a b hsame => hsame ▸ .refl (encode a)
  cases key with
  | scalars => exact (ScalarTable.concord_ofValue h).map fun _ _ h => h
  | defaultScalarType => exact hmap (Resolve.concord_defaultScalarType h) _
  | namingConvention => exact hmap (Convention.concord_ofValue h) _
  | typesPrefix => exact hmap (Setting.concord_text h _) _
  | typesSuffix => exact hmap (Setting.concord_text h _) _
  | fragmentVariableSuffix => exact hmap (Setting.concord_text h _) _
  | fragmentVariablePrefix => exact hmap (Setting.concord_text h _) _
  | externalFragments =>
      exact Setting.concord_listed (fun _ _ => ExternalFragment.concord_ofValue) h _
  | fragmentImports =>
      refine Setting.concord_listed (fun v w h path => ?_) h _
      exact (FragmentImport.concord_ofValue h path).imp fun a b hsame => hsame ▸ .refl a.toValue
  | inlineFragmentTypes => exact hmap (Resolve.concord_fragmentTyping h) _
  | _ => exact hmap (Setting.concord_boolean h _) _

end Nomenclature
