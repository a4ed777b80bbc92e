import Nomenclature.Proofs.NonMappings
import Nomenclature.Proofs.Readers

/-!
# Imports with and without a nested section

An import may keep its path, its namespace and its identifiers in a nested section, and what it says
of them itself comes first. Here the nested section is resolved into the import: what the import
does not set is taken over under the key that it has outside. Both forms are read from the same
values, so they come to the same import or to the same fault.
-/

namespace Nomenclature

namespace Entries

variable {entries : Entries} {name other : String}

theorem getD_put_self (entries : Entries) (name : String) (value otherwise : Value) :
    getD (Table.put (.text name) value entries) name otherwise = value := by
  rw [getD, Table.lookup?_put, if_pos (Value.sameAs_refl _), Option.getD_some]

theorem getD_put (h : name ≠ other) (value otherwise : Value) :
    getD (Table.put (.text other) value entries) name otherwise = getD entries name otherwise := by
  have hother : ¬ (Value.text other).sameAs (.text name) = true := by
    rw [Value.sameAs_text, Value.asText?_text, Option.some.injEq]
    exact Ne.symm h
  rw [getD, getD, Table.lookup?_put, if_neg hother]

/-- Entries with a key taken over from a nested section that has it, unless they set it. -/
def adopt (inner : Entries) (name source : String) (entries : Entries) : Entries :=
  match Table.lookup? inner (.text source) with
  | some value =>
    if (named entries name).isNull then Table.put (.text name) value entries else entries
  | none => entries

variable {inner : Entries} {source : String}

theorem getD_adopt (h : other ≠ name) (otherwise : Value) :
    getD (adopt inner name source entries) other otherwise = getD entries other otherwise := by
  rw [adopt]
  cases Table.lookup? inner (.text source) with
  | none => rfl
  | some value =>
      by_cases hnull : (named entries name).isNull = true
      · simp only [if_pos hnull]
        exact getD_put h value otherwise
      · simp only [if_neg hnull]

theorem named_adopt (h : other ≠ name) :
    named (adopt inner name source entries) other = named entries other :=
  getD_adopt h .null

/-- The key is read as it was before, with the nested section behind it. -/
theorem orElse_adopt (hinner : ∀ entry ∈ inner, entry.2.isNull = false) (otherwise : Value) :
    (named (adopt inner name source entries) name).orElse otherwise =
      (named entries name).orElse (getD inner source otherwise) := by
  rw [adopt, getD]
  cases hsource : Table.lookup? inner (.text source) with
  | none => rfl
  | some value =>
      obtain ⟨key, -, hentry⟩ := Table.mem_of_lookup? hsource
      have hvalue : value.isNull = false := hinner _ hentry
      by_cases hnull : (named entries name).isNull = true
      · simp only [if_pos hnull]
        rw [named, getD_put_self, Value.orElse, hvalue, Value.orElse, if_pos hnull]
        rfl
      · simp only [if_neg hnull]
        rw [Value.orElse, if_neg hnull, Value.orElse, if_neg hnull]

end Entries

namespace ImportedIdentifier

/-- A value that is listed as an identifier, and the identifier: built before, or a mapping with one
of two kinds and a text as its name. -/
inductive From : Value → ImportedIdentifier → Prop
  | built (name kind : Value) : From (.identifier name kind) ⟨name, kind⟩
  | mapping {frozen : Bool} {entries : Entries} {kind name : String}
      (hkind : kind = "type" ∨ kind = "document")
      (hentry : (Entries.named entries "kind").asText? = some kind)
      (hname : (Entries.named entries "name").asText? = some name) :
      From (.mapping frozen entries) ⟨.text name, Entries.named entries "kind"⟩

theorem isKind_iff (value : Value) :
    isKind value = true ↔ ∃ kind, (kind = "type" ∨ kind = "document") ∧
      value.asText? = some kind := by
  rw [isKind, Bool.or_eq_true, Value.sameText, Value.sameText, beq_iff_eq, beq_iff_eq]
  constructor
  · rintro (h | h)
    · exact ⟨"type", .inl rfl, h⟩
    · exact ⟨"document", .inr rfl, h⟩
  · rintro ⟨kind, rfl | rfl, h⟩
    · exact .inl h
    · exact .inr h

theorem ofValue_eq_ok_iff (value : Value) (path : String) (identifier : ImportedIdentifier) :
    ofValue value path = .ok identifier ↔ From value identifier := by
  constructor
  · intro h
    cases value with
    | identifier name kind =>
        obtain rfl := Except.ok.inj h
        exact .built name kind
    | mapping frozen entries =>
        simp only [ofValue] at h
        split at h
        · rename_i hkind
          obtain ⟨name, hname, h⟩ := bind_eq_ok_iff.1 h
          obtain rfl := Except.ok.inj h
          obtain ⟨kind, hknown, hentry⟩ := (isKind_iff _).1 hkind
          exact .mapping hknown hentry (Setting.text_eq_ok_iff.1 hname)
        · cases h
    | _ => cases h
  · intro h
    cases h with
    | built name kind => rfl
    | @mapping frozen entries kind name hkind hentry hname =>
        have hknown : isKind (Entries.named entries "kind") = true :=
          (isKind_iff _).2 ⟨kind, hkind, hentry⟩
        simp only [ofValue]
        rw [if_pos hknown]
        apply bind_eq_ok_iff.2
        exact ⟨name, Setting.text_eq_ok_iff.2 hname, rfl⟩

end ImportedIdentifier

namespace FragmentImport

/-- An import without its nested section, the settings of which are taken over. -/
def flat (entries inner : Entries) : Entries :=
  Entries.adopt inner "importPath" "path" (Entries.adopt inner "namespace" "namespace"
    (Entries.adopt inner "identifiers" "identifiers" (Table.drop entries (.text nestedKey))))

variable {entries inner : Entries}

theorem getD_flat {name : String} (otherwise : Value)
    (hname : name ∉ ["importPath", "namespace", "identifiers", nestedKey]) :
    Entries.getD (flat entries inner) name otherwise = Entries.getD entries name otherwise := by
  simp only [List.mem_cons, List.not_mem_nil, or_false, not_or] at hname
  obtain ⟨hpath, hscope, hidentifiers, hnested⟩ := hname
  rw [flat, Entries.getD_adopt hpath, Entries.getD_adopt hscope, Entries.getD_adopt hidentifiers,
    Entries.getD_drop hnested]

/-- Either form gives the same values. -/
theorem parts_flat (hinner : ∀ entry ∈ inner, entry.2.isNull = false) :
    parts (flat entries inner) [] = parts entries inner := by
  have hdrop (name : String) (h : name ≠ nestedKey) :
      Entries.named (Table.drop entries (.text nestedKey)) name = Entries.named entries name :=
    Entries.getD_drop h .null
  have hpath : (Entries.named (flat entries inner) "importPath").orElse (.text "") =
      (Entries.named entries "importPath").orElse (Entries.getD inner "path" (.text "")) := by
    rw [flat, Entries.orElse_adopt hinner, Entries.named_adopt (by decide),
      Entries.named_adopt (by decide), hdrop _ (by decide)]
  have hscope : (Entries.named (flat entries inner) "namespace").orElse .null =
      (Entries.named entries "namespace").orElse (Entries.named inner "namespace") := by
    rw [flat, Entries.named_adopt (by decide), Entries.orElse_adopt hinner,
      Entries.named_adopt (by decide), hdrop _ (by decide)]
    rfl
  have hidentifiers : (Entries.named (flat entries inner) "identifiers").orElse (.list []) =
      (Entries.named entries "identifiers").orElse
        (Entries.getD inner "identifiers" (.list [])) := by
    rw [flat, Entries.named_adopt (by decide), Entries.named_adopt (by decide),
      Entries.orElse_adopt hinner, hdrop _ (by decide)]
  have htyping : Entries.either (flat entries inner) "typeImport" "typesImport" (.boolean false) =
      Entries.either entries "typeImport" "typesImport" (.boolean false) := by
    simp only [Entries.either, Entries.named]
    rw [getD_flat _ (by decide), getD_flat _ (by decide)]
  simp only [parts, Parts.mk.injEq]
  refine ⟨hscope, hidentifiers, ?_, ?_, ?_, hpath, htyping⟩
  all_goals exact getD_flat _ (by decide)

/-- A mapping is the nested section, an empty one as well. -/
theorem nested_of_asEntries? (h : (Entries.named entries nestedKey).asEntries? = some inner)
    (path : String) : nested entries path = .ok inner := by
  cases hplace : Entries.named entries nestedKey with
  | mapping frozen found =>
      obtain rfl : found = inner := by simpa [hplace, Value.asEntries?] using h
      -- An empty mapping counts as false, so it takes the branch of what is left out.
      cases found with
      | nil => exact nested_of_isTruthy_eq_false (by rw [hplace]; rfl) path
      | cons first rest =>
          have hsection : Entries.named entries "importSource" = .mapping frozen (first :: rest) :=
            hplace
          rw [nested, hsection]
          rfl
  | _ => simp [hplace, Value.asEntries?] at h

/-- The identifiers of an import correspond to the listed ones, one for one and in order. -/
theorem identifiers_of_ofParts {parts : Parts} {path : String} {found : FragmentImport}
    (h : ofParts parts path = .ok found) : ∃ listed identifiers,
      parts.identifiers.asItems? = some listed ∧
        found.identifiers = .tuple (identifiers.map ImportedIdentifier.toValue) ∧
          List.Forall₂ ImportedIdentifier.From listed identifiers := by
  simp only [ofParts, bind_eq_ok_iff] at h
  obtain ⟨_, -, listed, hlisted, identifiers, hidentifiers, _, -, _, -, _, -, _, -, _, -, h⟩ := h
  obtain rfl := Except.ok.inj h
  refine ⟨listed, identifiers, Setting.list_eq_ok_iff.1 hlisted, rfl, ?_⟩
  exact (Setting.items_eq_ok_iff ImportedIdentifier.ofValue_eq_ok_iff).1 hidentifiers

/-- An import comes to the same, whether its nested section is left in place or resolved into it: to
the same import or to the same fault. An import that it comes to has an identifier for each listed
one, in order: the same one if it was built before, and otherwise that of a mapping with one of two
kinds and a text as its name. -/
theorem ofValue_flat (hnested : (Entries.named entries nestedKey).asEntries? = some inner)
    (hinner : ∀ entry ∈ inner, entry.2.isNull = false) (frozen : Bool) (path : String) :
    ofValue (.mapping frozen (flat entries inner)) path =
        ofValue (.mapping frozen entries) path ∧
      ∀ found, ofValue (.mapping frozen entries) path = .ok found → ∃ listed identifiers,
        ((Entries.named entries "identifiers").orElse
            (Entries.getD inner "identifiers" (.list []))).asItems? = some listed ∧
          found.identifiers = .tuple (identifiers.map ImportedIdentifier.toValue) ∧
            List.Forall₂ ImportedIdentifier.From listed identifiers := by
  have hleft : (Entries.named (flat entries inner) nestedKey).isTruthy = false := by
    rw [flat, Entries.named_adopt (by decide), Entries.named_adopt (by decide),
      Entries.named_adopt (by decide), Entries.named_drop_self]
    rfl
  have hflat : ofValue (.mapping frozen (flat entries inner)) path =
      ofParts (parts (flat entries inner) []) path := by
    rw [ofValue, ofEntries_eq, nested_of_isTruthy_eq_false hleft]
    rfl
  have hentries : ofValue (.mapping frozen entries) path = ofParts (parts entries inner) path := by
    rw [ofValue, ofEntries_eq, nested_of_asEntries? hnested]
    rfl
  constructor
  · rw [hflat, hentries, parts_flat hinner]
  · intro found h
    rw [hentries] at h
    exact identifiers_of_ofParts h

/-- A nested section with all three settings, one of two identifiers built before. -/
def userSection : Entries :=
  [(.text "path", .text "./hidden"), (.text "namespace", .text "Types"),
    (.text "identifiers", .list [.identifier (.text "UserFragment") (.text "type"),
      .mapping false [(.text "kind", .text "document"), (.text "name", .text "UserDoc")]])]

/-- An import that sets its path itself and its namespace to null. -/
def userImport : Entries :=
  [(.text "namespace", .null), (.text "importPath", .text "./user"),
    (.text "importSource", .mapping false userSection)]

/-- The path of the import stays, the other two settings come from the nested section. -/
theorem ofValue_flat_user :
    flat userImport userSection =
        [(.text "namespace", .text "Types"), (.text "importPath", .text "./user"),
          (.text "identifiers", Entries.named userSection "identifiers")] ∧
      (Entries.named userImport nestedKey).asEntries? = some userSection ∧
      (∀ entry ∈ userSection, entry.2.isNull = false) ∧
      ofValue (.mapping false (flat userImport userSection)) "fragmentImports.0" =
        ofValue (.mapping false userImport) "fragmentImports.0" ∧
      ∃ found, ofValue (.mapping false userImport) "fragmentImports.0" = .ok found ∧
        ∃ listed identifiers,
          ((Entries.named userImport "identifiers").orElse
              (Entries.getD userSection "identifiers" (.list []))).asItems? = some listed ∧
            found.identifiers = .tuple (identifiers.map ImportedIdentifier.toValue) ∧
              List.Forall₂ ImportedIdentifier.From listed identifiers := by
  have hnested : (Entries.named userImport nestedKey).asEntries? = some userSection := rfl
  have hsection : ∀ entry ∈ userSection, entry.2.isNull = false := by decide
  have hflat := ofValue_flat hnested hsection false "fragmentImports.0"
  exact ⟨rfl, hnested, hsection, hflat.1, _, rfl, hflat.2 _ rfl⟩

end FragmentImport

end Nomenclature
