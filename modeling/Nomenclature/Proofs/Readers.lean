import Mathlib.Data.List.Forall2
import Mathlib.Data.List.TakeWhile
import Nomenclature.Proofs.Resolution

/-!
# What the readers accept

Each statement says of one reader when it yields something, and what. What a configuration holds of
plain data, how it reads back, and what its scalars are follow from these without opening the
readers again.
-/

namespace Nomenclature

theorem Setting.text_eq_ok_iff {value : Value} {path s : String} :
    text value path = .ok s ↔ value.asText? = some s := by
  rw [text]
  cases value.asText? <;> simp

/-- A boolean is one, or a text that says one as a word. -/
theorem Setting.boolean_eq_ok_iff {value : Value} {path : String} {b : Bool} :
    boolean value path = .ok b ↔
      value = .boolean b ∨ ∃ s, value.asText? = some s ∧ booleanWord? s = some b := by
  have htext (s : String) : boolean (.text s) path = .ok b ↔ booleanWord? s = some b := by
    simp only [boolean, Value.asText?]
    cases booleanWord? s <;> simp
  cases value with
  | boolean c => simp [boolean, Value.asText?]
  | text s => simp [htext, Value.asText?]
  | choice c =>
      change boolean (.text c.tag) path = .ok b ↔ _
      simp [htext, Value.asText?]
  | _ => simp [boolean, Value.asText?]

theorem Setting.list_eq_ok_iff {value : Value} {path : String} {listed : List Value} :
    list value path = .ok listed ↔ value.asItems? = some listed := by
  rw [list]
  cases value.asItems? <;> simp

/-- Where a reader yields what stands in a relation, whatever the path, a list is read as a list
that corresponds item by item. -/
theorem Setting.items_eq_ok_iff {α : Type} {read : Value → String → Except Fault α}
    {R : Value → α → Prop} (hread : ∀ item path a, read item path = .ok a ↔ R item a)
    {path : String} {index : Nat} {listed : List Value} {as : List α} :
    items read path index listed = .ok as ↔ List.Forall₂ R listed as := by
  induction listed generalizing index as with
  | nil =>
      rw [items, Except.ok.injEq, List.forall₂_nil_left_iff]
      exact eq_comm
  | cons item rest ih =>
      rw [items, List.forall₂_cons_left_iff]
      simp only [bind_eq_ok_iff, hread, ih]
      constructor
      · rintro ⟨first, hfirst, others, hothers, h⟩
        exact ⟨first, others, hfirst, hothers, (Except.ok.inj h).symm⟩
      · rintro ⟨first, others, hfirst, hothers, rfl⟩
        exact ⟨first, hfirst, others, hothers, rfl⟩

/-- A text is trimmed to nothing exactly if it is blank throughout. -/
theorem Text.trimmed_eq_nil_iff (cs : List Char) :
    trimmed cs = [] ↔ ∀ c ∈ cs, isBlank c = true := by
  rw [trimmed, List.reverse_eq_nil_iff, List.dropWhile_eq_nil_iff]
  simp only [List.mem_reverse]
  constructor
  · intro h c hc
    rw [← List.takeWhile_append_dropWhile (p := isBlank) (l := cs), List.mem_append] at hc
    rcases hc with hc | hc
    · exact List.mem_takeWhile_imp hc
    · exact h c hc
  · intro h c hc
    exact h c ((List.dropWhile_suffix isBlank).mem hc)

/-- A default type is a text that is not blank. -/
theorem Resolve.defaultScalarType_eq_ok_iff {value : Value} {type : String} :
    defaultScalarType value = .ok type ↔
      value.asText? = some type ∧ ∃ c ∈ type.toList, Text.isBlank c = false := by
  have hblank (s : String) : (Text.trimmed s.toList).isEmpty = false ↔
      ∃ c ∈ s.toList, Text.isBlank c = false := by
    rw [List.isEmpty_eq_false_iff, ne_eq, Text.trimmed_eq_nil_iff]
    simp
  rw [defaultScalarType, bind_eq_ok_iff]
  simp only [Setting.text_eq_ok_iff, ← hblank]
  constructor
  · rintro ⟨found, hfound, h⟩
    split at h
    · cases h
    · rename_i hwritten
      obtain rfl := Except.ok.inj h
      exact ⟨hfound, by simpa using hwritten⟩
  · rintro ⟨hfound, hwritten⟩
    refine ⟨type, hfound, ?_⟩
    rw [hwritten]
    rfl

/-- A mapping of types has texts on both sides, each its own or the other one. -/
theorem ScalarTypes.texts_of_ofEntries {entries : Entries} {path : String} {types : ScalarTypes}
    (h : ofEntries entries path = .ok types) : ∃ input output,
      types = ⟨.text input, .text output⟩ ∧
        ((Entries.named entries Direction.input.tag).orElse
          (Entries.named entries Direction.output.tag)).asText? = some input ∧
        ((Entries.named entries Direction.output.tag).orElse (.text input)).asText? =
          some output := by
  simp only [ofEntries] at h
  split at h
  · cases h
  · obtain ⟨input, hinput, h⟩ := bind_eq_ok_iff.1 h
    obtain ⟨output, houtput, h⟩ := bind_eq_ok_iff.1 h
    refine ⟨input, output, (Except.ok.inj h).symm, ?_, ?_⟩
    · exact Setting.text_eq_ok_iff.1 hinput
    · exact Setting.text_eq_ok_iff.1 houtput

theorem ScalarTable.ofValue_eq_ok_iff {value : Value} {table : ScalarTable} :
    ofValue value = .ok table ↔
      ∃ entries, value.asEntries? = some entries ∧ overlay builtin entries = .ok table := by
  rw [ofValue]
  cases value.asEntries? <;> simp

theorem Strategy.resolveValue_eq_ok_iff {host : Host} {value : Value}
    {found : Strategy × Callable} :
    resolveValue host value = .ok found ↔
      ofValue value = .ok found.1 ∧ found.1.resolve host = .ok found.2 := by
  rw [resolveValue, bind_eq_ok_iff]
  simp only [bind_eq_ok_iff]
  constructor
  · rintro ⟨strategy, hstrategy, f, hf, h⟩
    obtain rfl := Except.ok.inj h
    exact ⟨hstrategy, hf⟩
  · rintro ⟨hstrategy, hf⟩
    exact ⟨found.1, hstrategy, found.2, hf, rfl⟩

namespace Convention

/-- A convention is built from parts of which both strategies resolve. -/
theorem ofParts_eq_ok_iff {host : Host} {types enums underscore : Value}
    {convention : Convention} :
    ofParts host types enums underscore = .ok convention ↔ ∃ first second,
      Strategy.resolveValue host types = .ok first ∧
        Strategy.resolveValue host enums = .ok second ∧
          ⟨first.1, second.1, underscore⟩ = convention := by
  rw [ofParts, bind_eq_ok_iff]
  constructor
  · rintro ⟨first, hfirst, h⟩
    obtain ⟨second, hsecond, h⟩ := bind_eq_ok_iff.1 h
    exact ⟨first, second, hfirst, hsecond, Except.ok.inj h⟩
  · rintro ⟨first, second, hfirst, hsecond, rfl⟩
    refine ⟨first, hfirst, ?_⟩
    exact bind_eq_ok_iff.2 ⟨second, hsecond, rfl⟩

theorem ofParts_of_ofEntries {host : Host} {entries : Entries} {convention : Convention}
    (h : ofEntries host entries = .ok convention) : ∃ underscore,
      ofParts host
        ((Entries.named entries NameCategory.typeNames.tag).orElse Strategy.standard.toValue)
        ((Entries.named entries NameCategory.enumValues.tag).orElse Strategy.standard.toValue)
        (.boolean underscore) = .ok convention := by
  simp only [ofEntries] at h
  split at h
  · cases h
  · cases h
  · obtain ⟨underscore, -, h⟩ := bind_eq_ok_iff.1 h
    exact ⟨underscore, h⟩

end Convention

namespace FragmentImport

/-- The values from which an import is read. -/
structure Parts where
  scope : Value
  identifiers : Value
  baseDir : Value
  baseOutputDir : Value
  outputPath : Value
  importPath : Value
  typeImport : Value

/-- What entries give for an import, with a nested section behind them. -/
def parts (entries inner : Entries) : Parts where
  scope := (Entries.named entries "namespace").orElse (Entries.named inner "namespace")
  identifiers :=
    (Entries.named entries "identifiers").orElse (Entries.getD inner "identifiers" (.list []))
  baseDir := Entries.getD entries "baseDir" (.text "")
  baseOutputDir := Entries.getD entries "baseOutputDir" (.text "")
  outputPath := Entries.getD entries "outputPath" (.text "")
  importPath := (Entries.named entries "importPath").orElse (Entries.getD inner "path" (.text ""))
  typeImport := Entries.either entries "typeImport" "typesImport" (.boolean false)

/-- The namespace of an import, which may be left out. -/
def readScope (value : Value) (path : String) : Except Fault Value :=
  if value.isNull then .ok .null
  else Value.text <$> Setting.text value (path ++ ".importSource.namespace")

/-- Reads an import from its values, in their order. -/
def ofParts (parts : Parts) (path : String) : Except Fault FragmentImport := do
  let scope ← readScope parts.scope path
  let listed ← Setting.list parts.identifiers path
  let identifiers ← Setting.items ImportedIdentifier.ofValue (path ++ ".identifiers") 0 listed
  let baseDir ← Setting.text parts.baseDir (path ++ ".baseDir")
  let baseOutputDir ← Setting.text parts.baseOutputDir (path ++ ".baseOutputDir")
  let outputPath ← Setting.text parts.outputPath (path ++ ".outputPath")
  let importPath ← Setting.text parts.importPath (path ++ ".importSource.path")
  let typeImport ← Setting.boolean parts.typeImport (path ++ ".typeImport")
  return ⟨.text baseDir, .text baseOutputDir, .text outputPath,
    .tuple (identifiers.map ImportedIdentifier.toValue), .boolean typeImport, .text importPath,
    scope⟩

theorem ofEntries_eq (entries : Entries) (path : String) :
    ofEntries entries path = nested entries path >>= fun inner =>
      ofParts (parts entries inner) path := by
  rw [ofEntries]
  cases nested entries path with
  | error fault => rfl
  | ok inner =>
      change ite ((parts entries inner).scope.isNull = true) _ _ =
        (readScope (parts entries inner).scope path >>= _)
      rw [readScope]
      split <;> rfl

end FragmentImport

end Nomenclature
