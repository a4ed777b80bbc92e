import Nomenclature.Proofs.Resolution
import Nomenclature.ScalarPolicy

/-!
# The answers of a scalar policy agree

A policy is asked for one scalar, for a list of names, or for all scalars of a schema, and each of
these looks the names up in its own way. All of them refuse the same names: those without an entry,
if the policy is strict. A list is refused at the first such name, and a schema, whose types are
taken in the order of their names, at the least. The table of a schema is built by adding one name
after the other, which keeps the entries of the policy and what was added before; so it answers
every name that it has as the policy itself does.
-/

namespace Nomenclature

/-- The names of the scalars among some types. -/
def TypeMap.scalarNames (types : TypeMap) : List String :=
  (types.filter fun entry => entry.2 == .scalar).map (·.1)

theorem TypeMap.scalarNames_cons (name : String) (kind : TypeKind) (rest : TypeMap) :
    scalarNames ((name, kind) :: rest) =
      if kind = .scalar then name :: scalarNames rest else scalarNames rest := by
  rw [scalarNames, List.filter_cons]
  cases kind <;> rfl

theorem TypeMap.mem_scalarNames_sorted (types : TypeMap) (name : String) :
    name ∈ scalarNames types.sorted ↔ name ∈ scalarNames types := by
  have hperm : types.sorted.Perm types := sortedBy_perm _ types
  exact ((hperm.filter _).map _).mem_iff

theorem TypeMap.pairwise_scalarNames_sorted (types : TypeMap) :
    (scalarNames types.sorted).Pairwise (· ≤ ·) := by
  have hsorted : types.sorted.Pairwise fun a b => decide (a.1 ≤ b.1) = true := by
    apply pairwise_sortedBy
    · intro a b
      simpa using String.le_total a.1 b.1
    · intro a b c hab hbc
      rw [decide_eq_true_eq] at hab hbc ⊢
      exact String.le_trans hab hbc
  rw [scalarNames, List.pairwise_map]
  apply (hsorted.filter _).imp
  intro a b h
  exact of_decide_eq_true h

/-- The first name in order that is found is the least. -/
theorem le_of_find?_eq_some {names : List String} (hsorted : names.Pairwise (· ≤ ·))
    {p : String → Bool} {name : String} (hfirst : names.find? p = some name) {other : String}
    (hother : other ∈ names) (hp : p other = true) : name ≤ other := by
  obtain ⟨-, before, after, rfl, hbefore⟩ := List.find?_eq_some_iff_append.1 hfirst
  rcases List.mem_append.1 hother with hother | hother
  · have hrefused := hbefore other hother
    rw [hp] at hrefused
    exact Bool.noConfusion hrefused
  · rcases List.mem_cons.1 hother with rfl | hother
    · exact String.le_refl other
    · exact (List.pairwise_cons.1 (List.pairwise_append.1 hsorted).2.1).1 other hother

namespace ScalarPolicy

variable {policy : ScalarPolicy}

/-- A policy refuses a name without an entry if it is strict. -/
def refuses (policy : ScalarPolicy) (name : String) : Bool :=
  policy.strict && !policy.has name

theorem typeAt_tag (policy : ScalarPolicy) (name : String) (direction : Direction) :
    policy.typeAt name direction.tag = policy.typeToward name direction := by
  cases direction <;> rfl

theorem hasKey_table (policy : ScalarPolicy) (key : Value) :
    Table.hasKey policy.table key = Table.hasKey policy.scalars key := by
  rw [Table.hasKey_eq_isSome, Table.hasKey_eq_isSome, table, Table.lookup?_map,
    Option.isSome_map]

/-- The entries of the table are the output types of the policy. -/
theorem typeToward_of_lookup?_table {name : String} {type : Value}
    (h : Table.lookup? policy.table (.text name) = some type) :
    policy.typeToward name .output = .ok type := by
  rw [table, Table.lookup?_map] at h
  obtain ⟨types, htypes, rfl⟩ := Option.map_eq_some_iff.1 h
  rw [typeToward, htypes]
  rfl

theorem typeToward_of_refuses {name : String} (h : policy.refuses name = true)
    (direction : Direction) : policy.typeToward name direction = .error (.unknownScalar name) := by
  rw [refuses, Bool.and_eq_true, Bool.not_eq_true', has, Table.hasKey_eq_false_iff] at h
  rw [typeToward, h.2, h.1]
  rfl

theorem exists_typeToward {name : String} (h : policy.refuses name = false)
    (direction : Direction) : ∃ type, policy.typeToward name direction = .ok type := by
  rw [refuses, has, Table.hasKey_eq_isSome] at h
  rw [typeToward]
  cases hlookup : Table.lookup? policy.scalars (.text name) with
  | some types => exact ⟨types.toward direction, rfl⟩
  | none =>
      cases hstrict : policy.strict with
      | false => exact ⟨.text policy.defaultType, rfl⟩
      | true => simp [hlookup, hstrict] at h

/-- Asking for the type of a name succeeds exactly if the policy does not refuse the name. -/
theorem exists_typeAt_iff (policy : ScalarPolicy) (name : String) (direction : Direction) :
    (∃ type, policy.typeAt name direction.tag = .ok type) ↔ policy.refuses name = false := by
  rw [typeAt_tag]
  cases hrefuses : policy.refuses name with
  | true => simp [typeToward_of_refuses hrefuses direction]
  | false => simpa using exists_typeToward hrefuses direction

/-- A list of names fails at the first name that the policy refuses. -/
theorem faultOf_validate (policy : ScalarPolicy) (names : List String) :
    faultOf (policy.validate names) = (names.find? policy.refuses).map .unknownScalar := by
  induction names with
  | nil => rfl
  | cons name rest ih =>
      have haccepted : (!policy.strict || policy.has name) = !policy.refuses name := by
        rw [refuses, Bool.not_and, Bool.not_not]
      rw [validate, haccepted, List.find?_cons]
      cases policy.refuses name with
      | true => rfl
      | false => exact ih

theorem validate_eq_ok_iff_find? (policy : ScalarPolicy) (names : List String) :
    policy.validate names = .ok () ↔ names.find? policy.refuses = none := by
  rw [← Option.map_eq_none_iff (f := Fault.unknownScalar), ← faultOf_validate,
    faultOf_eq_none_iff]
  exact ⟨fun h => ⟨(), h⟩, fun ⟨_, h⟩ => h⟩

/-- A table that holds the output types of a policy, and those of some names besides. -/
structure Holds (policy : ScalarPolicy) (names : List String) (known : Entries) : Prop where
  hasKey_iff : ∀ key, Table.hasKey known key = true ↔
    Table.hasKey policy.table key = true ∨ ∃ name ∈ names, key.asText? = some name
  typeToward_eq : ∀ name type, Table.lookup? known (.text name) = some type →
    policy.typeToward name .output = .ok type
  lookup?_eq : ∀ key type, Table.lookup? policy.table key = some type →
    Table.lookup? known key = some type

theorem holds_table (policy : ScalarPolicy) : policy.Holds [] policy.table :=
  ⟨by simp, fun _ _ => typeToward_of_lookup?_table, fun _ _ => id⟩

/-- A name that the table has already adds nothing. -/
theorem Holds.known {names : List String} {known : Entries} (hknown : policy.Holds names known)
    {name : String} (hname : Table.hasKey known (.text name) = true) :
    policy.Holds (names ++ [name]) known := by
  refine ⟨fun key => ?_, hknown.typeToward_eq, hknown.lookup?_eq⟩
  rw [hknown.hasKey_iff]
  constructor
  · rintro (htable | ⟨other, hother, hkey⟩)
    · exact .inl htable
    · exact .inr ⟨other, List.mem_append_left _ hother, hkey⟩
  · rintro (htable | ⟨other, hother, hkey⟩)
    · exact .inl htable
    · rcases List.mem_append.1 hother with hother | hother
      · exact .inr ⟨other, hother, hkey⟩
      · obtain rfl : other = name := by simpa using hother
        have hsame := (Value.sameAs_text key other).2 hkey
        rwa [← Table.hasKey_congr hsame, hknown.hasKey_iff] at hname

/-- A name that the table lacks is added with its output type. -/
theorem Holds.add {names : List String} {known : Entries} (hknown : policy.Holds names known)
    {name : String} {type : Value} (hname : Table.hasKey known (.text name) = false)
    (htype : policy.typeToward name .output = .ok type) :
    policy.Holds (names ++ [name]) (known ++ [(.text name, type)]) := by
  have hadded (key : Value) : (Value.text name).sameAs key = true ↔ key.asText? = some name :=
    Value.sameAs_iff_of_asText? rfl
  constructor
  case hasKey_iff =>
    intro key
    have hsplit : Table.hasKey (known ++ [(Value.text name, type)]) key =
        (Table.hasKey known key || (Value.text name).sameAs key) := by
      simp [Table.hasKey]
    rw [hsplit, Bool.or_eq_true, hknown.hasKey_iff, hadded, or_assoc]
    simp [or_and_right, exists_or]
  case typeToward_eq =>
    intro other found hfound
    rw [Table.lookup?_append, Option.or_eq_some_iff] at hfound
    rcases hfound with hfound | ⟨-, hfound⟩
    · exact hknown.typeToward_eq other found hfound
    · rw [Table.lookup?_cons, Table.lookup?_nil] at hfound
      split at hfound
      · rename_i hsame
        obtain rfl : other = name := Option.some.inj ((hadded _).1 hsame)
        obtain rfl : type = found := Option.some.inj hfound
        exact htype
      · exact absurd hfound (by simp)
  case lookup?_eq =>
    intro key found hfound
    rw [Table.lookup?_append, hknown.lookup?_eq key found hfound, Option.some_or]

theorem Holds.refuses_eq_false {names : List String} {known : Entries}
    (hknown : policy.Holds names known) {name : String}
    (hname : Table.hasKey known (.text name) = true) : policy.refuses name = false := by
  obtain ⟨type, htype⟩ := Table.hasKey_iff.1 hname
  rw [← exists_typeAt_iff policy name .output, typeAt_tag]
  exact ⟨type, hknown.typeToward_eq name type htype⟩

/-- Adding the scalars of some types fails at the first name that the policy refuses, and else holds
the output types of all their names. -/
theorem cover_spec {names : List String} {known : Entries} (hknown : policy.Holds names known)
    (types : TypeMap) :
    faultOf (policy.cover known types).outcome =
        (types.scalarNames.find? policy.refuses).map .unknownScalar ∧
      ∀ covered, (policy.cover known types).outcome = .ok covered →
        policy.Holds (names ++ types.scalarNames) covered := by
  induction types generalizing names known with
  | nil =>
      refine ⟨rfl, fun covered hcovered => ?_⟩
      obtain rfl : known = covered := Except.ok.inj hcovered
      simpa [TypeMap.scalarNames] using hknown
  | cons entry rest ih =>
      obtain ⟨name, kind⟩ := entry
      rw [TypeMap.scalarNames_cons, cover]
      by_cases hkind : kind = .scalar
      · rw [if_pos hkind, List.find?_cons, List.append_cons]
        cases hname : Table.hasKey known (.text name) with
        | true =>
            rw [hknown.refuses_eq_false hname, if_pos (by simp)]
            exact ih (hknown.known hname)
        | false =>
            rw [if_neg (by simp [hkind])]
            cases hrefuses : policy.refuses name with
            | true =>
                rw [typeToward_of_refuses hrefuses]
                exact ⟨rfl, nofun⟩
            | false =>
                obtain ⟨type, htype⟩ := exists_typeToward hrefuses .output
                rw [htype]
                exact ih (hknown.add hname htype)
      · rw [if_neg hkind, if_pos (by simp [hkind])]
        exact ih hknown

theorem faultOf_coverSchema (policy : ScalarPolicy) (types : TypeMap) :
    faultOf (policy.coverSchema types).outcome =
      (types.sorted.scalarNames.find? policy.refuses).map .unknownScalar :=
  (cover_spec policy.holds_table types.sorted).1

theorem holds_coverSchema {types : TypeMap} {covered : Entries}
    (h : (policy.coverSchema types).outcome = .ok covered) :
    policy.Holds types.sorted.scalarNames covered := by
  simpa using (cover_spec policy.holds_table types.sorted).2 covered h

/-- After names that it does not refuse, a list fails at a name that the policy refuses. -/
theorem validate_append_of_refuses {before : List String}
    (hbefore : ∀ earlier ∈ before, policy.refuses earlier = false) {name : String}
    (hname : policy.refuses name = true) (after : List String) :
    policy.validate (before ++ name :: after) = .error (.unknownScalar name) := by
  have hearlier : before.find? policy.refuses = none := by
    rw [List.find?_eq_none]
    intro earlier hmem
    rw [hbefore earlier hmem]
    exact Bool.false_ne_true
  rw [← faultOf_eq_some_iff, faultOf_validate, List.find?_append, hearlier, List.find?_cons, hname]
  rfl

/-- A schema with a scalar that the policy refuses fails at the least of them. -/
theorem coverSchema_of_refuses {types : TypeMap} {refused : String}
    (hrefused : refused ∈ types.scalarNames) (hrefuses : policy.refuses refused = true) :
    ∃ name ∈ types.scalarNames, policy.refuses name = true ∧
      (∀ other ∈ types.scalarNames, policy.refuses other = true → name ≤ other) ∧
      (policy.coverSchema types).outcome = .error (.unknownScalar name) := by
  rw [← types.mem_scalarNames_sorted] at hrefused
  cases hfirst : types.sorted.scalarNames.find? policy.refuses with
  | none =>
      rw [List.find?_eq_none] at hfirst
      exact absurd hrefuses (hfirst refused hrefused)
  | some name =>
      have hmem := (types.mem_scalarNames_sorted name).1 (List.mem_of_find?_eq_some hfirst)
      refine ⟨name, hmem, List.find?_some hfirst, ?_, ?_⟩
      · intro other hother hrefuses
        apply le_of_find?_eq_some types.pairwise_scalarNames_sorted hfirst _ hrefuses
        exact (types.mem_scalarNames_sorted other).2 hother
      · rw [← faultOf_eq_some_iff, faultOf_coverSchema, hfirst]
        rfl

/-- Everything that a policy is asked for agrees with what it says of single names. -/
structure Coherent (policy : ScalarPolicy) : Prop where
  /-- A list of names is accepted exactly if each name has a type. -/
  validate_eq_ok_iff : ∀ names direction, policy.validate names = .ok () ↔
    ∀ name ∈ names, ∃ type, policy.typeAt name (Direction.tag direction) = .ok type
  /-- Otherwise the fault is that of the first name without a type. -/
  validate_eq_error : ∀ before name after direction,
    (∀ earlier ∈ before, ∃ type, policy.typeAt earlier (Direction.tag direction) = .ok type) →
    (∃ fault, policy.typeAt name (Direction.tag direction) = .error fault) →
    policy.validate (before ++ name :: after) = .error (.unknownScalar name)
  /-- A schema is covered exactly if the names of its scalars are accepted. -/
  exists_coverSchema_iff : ∀ types, (∃ covered, (policy.coverSchema types).outcome = .ok covered) ↔
    policy.validate types.scalarNames = .ok ()
  /-- Otherwise the fault is that of the least of them without an entry. -/
  coverSchema_eq_error : ∀ types, policy.validate types.scalarNames ≠ .ok () →
    ∃ name ∈ types.scalarNames, policy.has name = false ∧
      (∀ other ∈ types.scalarNames, policy.has other = false → name ≤ other) ∧
      (policy.coverSchema types).outcome = .error (.unknownScalar name)
  /-- The table of a schema has the names of the policy and of the schema. -/
  hasKey_coverSchema_iff : ∀ types covered, (policy.coverSchema types).outcome = .ok covered →
    ∀ key, Table.hasKey covered key = true ↔
      Table.hasKey policy.table key = true ∨
        ∃ name ∈ types.scalarNames, key.asText? = some name
  /-- It answers each of its names as the policy does. -/
  typeAt_of_coverSchema : ∀ types covered, (policy.coverSchema types).outcome = .ok covered →
    ∀ name, Table.hasKey covered (.text name) = true → ∃ type,
      Table.lookup? covered (.text name) = some type ∧
        policy.typeAt name Direction.output.tag = .ok type
  /-- It keeps the entries of the policy. -/
  lookup?_coverSchema : ∀ types covered, (policy.coverSchema types).outcome = .ok covered →
    ∀ key type, Table.lookup? policy.table key = some type →
      Table.lookup? covered key = some type
  /-- A policy has the names that its table has. -/
  has_iff : ∀ name, policy.has name = true ↔ Table.hasKey policy.table (.text name) = true
  /-- Its table answers each of them as the policy does. -/
  typeAt_of_table : ∀ name, policy.has name = true → ∃ type,
    Table.lookup? policy.table (.text name) = some type ∧
      policy.typeAt name Direction.output.tag = .ok type
  /-- A policy that is not strict has a type for every name. -/
  exists_typeAt : policy.strict = false → ∀ name direction, ∃ type,
    policy.typeAt name (Direction.tag direction) = .ok type

/-- All ways to ask a policy agree, whatever its entries, its strictness and its default type. -/
theorem coherent (policy : ScalarPolicy) : policy.Coherent := by
  constructor
  case validate_eq_ok_iff =>
    intro names direction
    rw [validate_eq_ok_iff_find?, List.find?_eq_none]
    apply forall₂_congr
    intro name _
    rw [exists_typeAt_iff, Bool.not_eq_true]
  case validate_eq_error =>
    intro before name after direction hbefore ⟨fault, hfault⟩
    apply validate_append_of_refuses
    · intro earlier hmem
      rw [← exists_typeAt_iff policy earlier direction]
      exact hbefore earlier hmem
    · rw [← Bool.not_eq_false, ← exists_typeAt_iff policy name direction, hfault]
      simp
  case exists_coverSchema_iff =>
    intro types
    rw [← faultOf_eq_none_iff, faultOf_coverSchema, Option.map_eq_none_iff,
      validate_eq_ok_iff_find?, List.find?_eq_none, List.find?_eq_none]
    simp only [TypeMap.mem_scalarNames_sorted]
  case coverSchema_eq_error =>
    intro types hnames
    obtain ⟨refused, hrefused, hrefuses⟩ : ∃ refused ∈ types.scalarNames,
        policy.refuses refused = true := by
      rw [ne_eq, validate_eq_ok_iff_find?, List.find?_eq_none] at hnames
      simpa using hnames
    obtain ⟨name, hmem, hname, hleast, hcover⟩ := coverSchema_of_refuses hrefused hrefuses
    rw [refuses, Bool.and_eq_true, Bool.not_eq_true'] at hname
    refine ⟨name, hmem, hname.2, ?_, hcover⟩
    intro other hother habsent
    apply hleast other hother
    rw [refuses, hname.1, habsent]
    rfl
  case hasKey_coverSchema_iff =>
    intro types covered h key
    rw [(holds_coverSchema h).hasKey_iff]
    simp only [TypeMap.mem_scalarNames_sorted]
  case typeAt_of_coverSchema =>
    intro types covered h name hname
    obtain ⟨type, htype⟩ := Table.hasKey_iff.1 hname
    rw [typeAt_tag]
    exact ⟨type, htype, (holds_coverSchema h).typeToward_eq name type htype⟩
  case lookup?_coverSchema =>
    intro types covered h
    exact (holds_coverSchema h).lookup?_eq
  case has_iff =>
    intro name
    rw [hasKey_table, has]
  case typeAt_of_table =>
    intro name hname
    rw [has, ← hasKey_table] at hname
    obtain ⟨type, htype⟩ := Table.hasKey_iff.1 hname
    rw [typeAt_tag]
    exact ⟨type, htype, typeToward_of_lookup?_table htype⟩
  case exists_typeAt =>
    intro hstrict name direction
    rw [exists_typeAt_iff, refuses, hstrict, Bool.false_and]

end ScalarPolicy

end Nomenclature
