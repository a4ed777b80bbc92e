import Nomenclature.Proofs.ExternalFragments
import Nomenclature.Proofs.RealText
import Nomenclature.Proofs.ReorderedReaders
import Nomenclature.Proofs.Restatement
import Nomenclature.Proofs.Usability

/-!
# The forms of a convention

A convention is written as one strategy, as a mapping that may leave parts out, or as a convention
built before. A mapping is read from what stands under its three keys, so one strategy is the same
as that strategy under both categories, a category left out is the same as the standard strategy
there, and what was read is read again as it is. The policy for underscores is read first, then the
strategies in their order, and the first fault is reported. A writer has a function for each
category, so what it makes of a name depends on the strategy of the category and on the policy alone.
-/

namespace Nomenclature

namespace Value

variable {v w : Value}

/-- A number counts as false exactly if it amounts to zero. -/
theorem isTruthy_iff_of_quantity? {q : Quantity} (hv : v.quantity? = some q) :
    v.isTruthy = true ↔ q ≠ .finite 0 := by
  cases v with
  | boolean b =>
      obtain rfl := Option.some.inj hv
      cases b <;> simp [isTruthy]
  | integer n =>
      obtain rfl := Option.some.inj hv
      simp [isTruthy]
  | real x =>
      obtain rfl := Option.some.inj hv
      rw [isTruthy, Bool.not_eq_true', ← Bool.not_eq_true, not_iff_not, Binary64.isZero,
        Bool.and_eq_true, beq_iff_eq, ← Binary64.toRat_eq_zero_iff, Binary64.quantity]
      split
      · rename_i hfinite
        simp [hfinite]
      · rename_i hfinite
        split <;> simp [hfinite]
  | _ => simp [quantity?] at hv

theorem isTruthy_of_fields? {fields : List (String × Value)} (hv : v.fields? = some fields) :
    v.isTruthy = true := by
  cases v with
  | scalarTypes | fragment | identifier | fragmentImport | convention => rfl
  | _ => simp [fields?] at hv

/-- Values that count as the same count as true alike. -/
theorem isTruthy_eq_of_sameAs (h : v.sameAs w = true) : v.isTruthy = w.isTruthy := by
  rw [Bool.eq_iff_iff]
  cases hquantity : v.quantity? with
  | some q =>
      have hw := (sameAs_iff_of_quantity? hquantity).1 h
      rw [isTruthy_iff_of_quantity? hquantity, isTruthy_iff_of_quantity? hw]
  | none =>
  cases htext : v.asText? with
  | some s =>
      have hw := (sameAs_iff_of_asText? htext).1 h
      rw [isTruthy_of_asText? htext, isTruthy_of_asText? hw]
  | none =>
  cases hfields : v.fields? with
  | some fields =>
      obtain ⟨others, hw, -⟩ := (sameAs_iff_fields? hfields).1 h
      rw [isTruthy_of_fields? hfields, isTruthy_of_fields? hw]
  | none =>
  cases v with
  | list items =>
      obtain ⟨others, rfl, hitems⟩ := sameAs_list_iff.1 h
      cases hitems <;> rfl
  | tuple items =>
      obtain ⟨others, rfl, hitems⟩ := sameAs_tuple_iff.1 h
      cases hitems <;> rfl
  | set frozen items =>
      obtain ⟨frozen', others, rfl, hitems⟩ := sameAs_set_iff_covers.1 h
      rw [isTruthy, isTruthy, hitems.isEmpty_eq]
  | mapping frozen entries =>
      obtain ⟨frozen', others, rfl, hentries⟩ := sameAs_mapping_iff_covers.1 h
      rw [isTruthy, isTruthy, hentries.isEmpty_eq]
  | null | undefined | bytes | callable | node =>
      cases w <;> simp_all [sameAs, isNull, isTruthy]
  | boolean | integer | real => simp [quantity?] at hquantity
  | text | choice => simp [asText?] at htext
  | _ => simp [fields?] at hfields

end Value

namespace Convention

variable {host : Host} {entries others : Entries} {types enums underscore : Option Value}

/-- The entries of a mapping that has no keys but those of a convention, with these values under
them, none where nothing stands. -/
structure Describes (entries : Entries) (types enums underscore : Option Value) : Prop where
  known : ∀ entry ∈ entries, isKey entry.1 = true
  types : Table.lookup? entries (.text NameCategory.typeNames.tag) = types
  enums : Table.lookup? entries (.text NameCategory.enumValues.tag) = enums
  underscore : Table.lookup? entries (.text underscoreKey) = underscore

/-- The strategy of a category under which a mapping gives a value, or none. -/
def strategyOr (given : Option Value) : Value :=
  (given.getD .null).orElse Strategy.standard.toValue

/-- The policy for underscores, read from what a mapping gives for it. -/
def readUnderscore (given : Option Value) : Except Fault Bool :=
  Setting.boolean (given.getD (.boolean false)) ("namingConvention." ++ underscoreKey)

/-- A mapping with known keys is read from what stands under them. -/
theorem Describes.ofEntries_eq (h : Describes entries types enums underscore) :
    ofEntries host entries = readUnderscore underscore >>= fun policy =>
      ofParts host (strategyOr types) (strategyOr enums) (.boolean policy) := by
  rw [ofEntries_of_known h.known, readUnderscore, strategyOr, strategyOr, ← h.types, ← h.enums,
    ← h.underscore]
  rfl

/-! ## Faults -/

/-- The fault of what a mapping gives as the policy for underscores. -/
def underscoreFault (given : Option Value) : Option Fault :=
  given.bind fun value => faultOf (Setting.boolean value ("namingConvention." ++ underscoreKey))

/-- The fault of what a mapping gives as a strategy; a null is none. -/
def strategyFault (host : Host) (given : Option Value) : Option Fault :=
  (given.filter fun value => !value.isNull).bind fun value =>
    faultOf (Strategy.resolveValue host value)

theorem faultOf_readUnderscore (given : Option Value) :
    faultOf (readUnderscore given) = underscoreFault given := by
  cases given <;> rfl

theorem faultOf_strategyOr (host : Host) (given : Option Value) :
    faultOf (Strategy.resolveValue host (strategyOr given)) = strategyFault host given := by
  cases given with
  | none => rfl
  | some value =>
      rw [strategyOr, Option.getD_some, Value.orElse, strategyFault]
      cases hnull : value.isNull with
      | true =>
          simp only [Option.filter_some, hnull]
          rfl
      | false => simp [Option.filter_some, hnull]

theorem faultOf_ofParts (host : Host) (types enums underscore : Value) :
    faultOf (ofParts host types enums underscore) =
      (faultOf (Strategy.resolveValue host types)).or
        (faultOf (Strategy.resolveValue host enums)) := by
  rw [ofParts]
  refine faultOf_bind fun first _ => ?_
  exact (faultOf_bind fun second _ => faultOf_ok _).trans Option.or_none

/-- The policy is read first, and then the strategies in their order. -/
theorem Describes.faultOf_ofEntries (h : Describes entries types enums underscore) (host : Host) :
    faultOf (ofEntries host entries) =
      (underscoreFault underscore).or ((strategyFault host types).or (strategyFault host enums)) := by
  rw [h.ofEntries_eq, ← faultOf_readUnderscore, ← faultOf_strategyOr, ← faultOf_strategyOr]
  exact faultOf_bind fun policy _ => faultOf_ofParts ..

theorem isSome_underscoreFault_iff (given : Option Value) :
    (underscoreFault given).isSome = true ↔
      ∃ value, given = some value ∧ ∀ b, ¬ Setting.Says value b := by
  cases given with
  | none => simp [underscoreFault]
  | some value =>
      have hread : (∀ b, ¬ Setting.Says value b) ↔
          faultOf (Setting.boolean value ("namingConvention." ++ underscoreKey)) ≠ none := by
        rw [ne_eq, faultOf_eq_none_iff, not_exists]
        exact forall_congr' fun b => not_congr Setting.boolean_eq_ok_iff.symm
      rw [underscoreFault, Option.bind_some, Option.isSome_iff_ne_none, ← hread]
      simp

theorem isSome_strategyFault_iff (host : Host) (given : Option Value) :
    (strategyFault host given).isSome = true ↔ ∃ value, given = some value ∧ value ≠ .null ∧
      ∃ fault, Strategy.resolveValue host value = .error fault := by
  cases given with
  | none => simp [strategyFault]
  | some value =>
      simp only [← isSome_faultOf_iff, Option.some.injEq, exists_eq_left', strategyFault]
      cases value <;> simp [Option.filter_some, Value.isNull]

/-- A mapping fails exactly if its policy is there and says no boolean, or if one of its strategies
is not null and does not resolve. -/
theorem Describes.fails_iff (h : Describes entries types enums underscore) (host : Host) :
    (∃ fault, ofEntries host entries = .error fault) ↔
      (∃ value, underscore = some value ∧ ∀ b, ¬ Setting.Says value b) ∨
        ∃ value, (types = some value ∨ enums = some value) ∧ value ≠ .null ∧
          ∃ fault, Strategy.resolveValue host value = .error fault := by
  rw [← isSome_faultOf_iff, h.faultOf_ofEntries, Option.isSome_or, Option.isSome_or, Bool.or_eq_true,
    Bool.or_eq_true, isSome_underscoreFault_iff, isSome_strategyFault_iff,
    isSome_strategyFault_iff, ← exists_or]
  simp only [or_and_right]

/-! ## Forms -/

/-- One strategy is that strategy under both categories. -/
theorem Describes.ofValue_eq {strategy : Value} (h : Describes entries (some strategy)
    (some strategy) none) (host : Host) (frozen : Bool)
    (hstrategy : (strategy.asText?.isSome || strategy.asCallable?.isSome) = true) :
    ofValue host (.mapping frozen entries) = ofValue host strategy := by
  have hmapping : ofValue host (.mapping frozen entries) =
      ofParts host (strategyOr (some strategy)) (strategyOr (some strategy)) (.boolean false) :=
    h.ofEntries_eq
  have hgiven : strategyOr (some strategy) = strategy := by
    rw [strategyOr, Option.getD_some, Value.orElse, if_neg]
    cases strategy <;> simp_all [Value.asText?, Value.asCallable?, Value.isNull]
  rw [hmapping, hgiven]
  cases strategy
  case text | choice | callable => rfl
  all_goals cases hstrategy

end Convention

namespace NameWriter

variable {host : Host} {value value' : Value} {convention convention' : Convention}

/-- Conventions with one strategy for a category and one policy write the names of the category
alike. -/
theorem exists_write_eq (h : Convention.ofValue host value = .ok convention)
    (h' : Convention.ofValue host value' = .ok convention') {category : NameCategory}
    (hstrategy : convention.strategyOf category = convention'.strategyOf category)
    (hpolicy : convention.transformUnderscore.sameAs convention'.transformUnderscore = true) :
    ∃ writer writer', ofConvention host convention = .ok writer ∧
      ofConvention host convention' = .ok writer' ∧
      ∀ (source : NameSource) (policy : Option Bool),
        writer.write host category source.name policy =
          writer'.write host category source.name policy := by
  obtain ⟨writer, hwriter, happlies⟩ := exists_applies h
  obtain ⟨writer', hwriter', happlies'⟩ := exists_applies h'
  obtain ⟨f, hf, -, hwrite⟩ := happlies.validated category
  obtain ⟨f', hf', -, hwrite'⟩ := happlies'.validated category
  have hresolve := (Strategy.resolveValue_eq_ok_iff.1 hf).2
  have hresolve' := (Strategy.resolveValue_eq_ok_iff.1 hf').2
  obtain rfl : f = f' := by
    rw [hstrategy, hresolve'] at hresolve
    exact (Except.ok.inj hresolve).symm
  refine ⟨writer, writer', hwriter, hwriter', fun source policy => ?_⟩
  rw [hwrite, hwrite', Value.isTruthy_eq_of_sameAs hpolicy]

end NameWriter

namespace Convention

/-- All forms of a convention say the same. One strategy is that strategy under both categories; a
category left out is the standard strategy under it; and a convention that was read is read again as
it is. A mapping with known keys fails exactly if its policy is there and says no boolean, or if one
of its strategies is not null and does not resolve; the policy is reported first, and then the
strategies in their order. And the categories are independent: conventions with one strategy for a
category and one policy write all names of the category alike. -/
theorem equivalent_forms (host : Host) :
    (∀ (strategy : Value) (frozen : Bool) (entries : Entries),
      (strategy.asText?.isSome || strategy.asCallable?.isSome) = true →
        Describes entries (some strategy) (some strategy) none →
          ofValue host (.mapping frozen entries) = ofValue host strategy) ∧
    (∀ (frozen frozen' : Bool) (entries others : Entries) (given underscore : Option Value),
      (Describes entries none given underscore →
        Describes others (some Strategy.standard.toValue) given underscore →
          ofValue host (.mapping frozen entries) = ofValue host (.mapping frozen' others)) ∧
      (Describes entries given none underscore →
        Describes others given (some Strategy.standard.toValue) underscore →
          ofValue host (.mapping frozen entries) = ofValue host (.mapping frozen' others))) ∧
    (∀ (value : Value) (convention : Convention), ofValue host value = .ok convention →
      ofValue host convention.toValue = .ok convention) ∧
    (∀ (frozen : Bool) (entries : Entries) (types enums underscore : Option Value),
      Describes entries types enums underscore →
        ((∃ fault, ofValue host (.mapping frozen entries) = .error fault) ↔
          (∃ value, underscore = some value ∧ ∀ b, ¬ Setting.Says value b) ∨
            ∃ value, (types = some value ∨ enums = some value) ∧ value ≠ .null ∧
              ∃ fault, Strategy.resolveValue host value = .error fault) ∧
        faultOf (ofValue host (.mapping frozen entries)) = (underscoreFault underscore).or
          ((strategyFault host types).or (strategyFault host enums))) ∧
    ∀ (value value' : Value) (convention convention' : Convention) (category : NameCategory),
      ofValue host value = .ok convention → ofValue host value' = .ok convention' →
        convention.strategyOf category = convention'.strategyOf category →
        convention.transformUnderscore.sameAs convention'.transformUnderscore = true →
          ∃ writer writer', NameWriter.ofConvention host convention = .ok writer ∧
            NameWriter.ofConvention host convention' = .ok writer' ∧
            ∀ (source : NameSource) (policy : Option Bool),
              writer.write host category source.name policy =
                writer'.write host category source.name policy := by
  refine ⟨?_, ?_, fun _ _ => ofValue_toValue, ?_, ?_⟩
  · intro strategy frozen entries hstrategy h
    exact h.ofValue_eq host frozen hstrategy
  · intro frozen frozen' entries others given underscore
    refine ⟨fun h h' => ?_, fun h h' => ?_⟩
    · exact h.ofEntries_eq.trans h'.ofEntries_eq.symm
    · exact h.ofEntries_eq.trans h'.ofEntries_eq.symm
  · intro frozen entries types enums underscore h
    exact ⟨h.fails_iff host, h.faultOf_ofEntries host⟩
  · intro value value' convention convention' category h h' hstrategy hpolicy
    exact NameWriter.exists_write_eq h h' hstrategy hpolicy

/-- Snake case under both categories. -/
def snakeEntries : Entries :=
  [(.text "enumValues", .text "snakeCase"), (.text "typeNames", .text "snakeCase")]

/-- A category left out, and a policy that is a word. -/
def keepingEntries : Entries :=
  [(.text "enumValues", .text "keep"), (.text "transformUnderscore", .text " Yes ")]

/-- Two faults, and a strategy that is null. -/
def faultyEntries : Entries :=
  [(.text "enumValues", .text "kebabCase"), (.text "typeNames", .null),
    (.text "transformUnderscore", .integer 1)]

/-- Each of the forms, two faults of which the policy is reported, and two conventions that differ
in the values of enums and in the form of their policy. -/
theorem equivalent_forms_snake :
    (Describes snakeEntries (some (.text "snakeCase")) (some (.text "snakeCase")) none ∧
      ofValue Host.bare (.mapping false snakeEntries) =
        ofValue Host.bare (.text "snakeCase")) ∧
    (Describes keepingEntries none (some (.text "keep")) (some (.text " Yes ")) ∧
      Describes (keepingEntries ++ [(.text "typeNames", .text "pascalCase")])
        (some Strategy.standard.toValue) (some (.text "keep")) (some (.text " Yes ")) ∧
      ofValue Host.bare (.mapping false keepingEntries) = ofValue Host.bare
        (.mapping true (keepingEntries ++ [(.text "typeNames", .text "pascalCase")]))) ∧
    (∃ convention, ofValue Host.bare (.mapping false keepingEntries) = .ok convention ∧
      ofValue Host.bare convention.toValue = .ok convention) ∧
    (Describes faultyEntries (some .null) (some (.text "kebabCase")) (some (.integer 1)) ∧
      (∃ fault, ofValue Host.bare (.mapping false faultyEntries) = .error fault) ∧
      faultOf (ofValue Host.bare (.mapping false faultyEntries)) =
        some (.config (.expected .boolean "namingConvention.transformUnderscore"))) ∧
    ∃ writer writer',
      NameWriter.ofConvention Host.bare ⟨.named "snakeCase", .named "keep", .integer 1⟩ =
          .ok writer ∧
        NameWriter.ofConvention Host.bare ⟨.named "snakeCase", .named "camelCase", .boolean true⟩ =
          .ok writer' ∧
        writer.write Host.bare .typeNames "_userId" none =
          writer'.write Host.bare .typeNames "_userId" none := by
  obtain ⟨hboth, hstandard, hagain, hfaults, hwriters⟩ := equivalent_forms Host.bare
  have hsnake : Describes snakeEntries (some (.text "snakeCase")) (some (.text "snakeCase")) none :=
    ⟨by decide, rfl, rfl, rfl⟩
  have hkeeping : Describes keepingEntries none (some (.text "keep")) (some (.text " Yes ")) :=
    ⟨by decide, rfl, rfl, rfl⟩
  have hadded : Describes (keepingEntries ++ [(.text "typeNames", .text "pascalCase")])
      (some Strategy.standard.toValue) (some (.text "keep")) (some (.text " Yes ")) :=
    ⟨by decide, rfl, rfl, rfl⟩
  have hfaulty : Describes faultyEntries (some .null) (some (.text "kebabCase"))
      (some (.integer 1)) :=
    ⟨by decide, rfl, rfl, rfl⟩
  have hread : ofValue Host.bare (.mapping false keepingEntries) =
      .ok ⟨.named "pascalCase", .named "keep", .boolean true⟩ := rfl
  obtain ⟨hfails, hfirst⟩ := hfaults false _ _ _ _ hfaulty
  have hpolicy : ∀ b, ¬ Setting.Says (.integer 1) b := by
    rintro b (hboolean | ⟨s, hs, -⟩)
    · cases hboolean
    · cases hs
  refine ⟨⟨hsnake, hboth _ false _ rfl hsnake⟩,
    ⟨hkeeping, hadded, (hstandard false true _ _ _ _).1 hkeeping hadded⟩,
    ⟨_, hread, hagain _ _ hread⟩,
    ⟨hfaulty, hfails.2 (.inl ⟨_, rfl, hpolicy⟩), hfirst.trans rfl⟩, ?_⟩
  obtain ⟨writer, writer', hwriter, hwriter', hwrite⟩ := hwriters
    (.convention (.text "snakeCase") (.text "keep") (.integer 1))
    (.convention (.text "snakeCase") (.text "camelCase") (.boolean true)) _ _ .typeNames rfl rfl rfl
    (by decide)
  exact ⟨writer, writer', hwriter, hwriter', hwrite (.text "_userId") none⟩

end Convention

end Nomenclature
