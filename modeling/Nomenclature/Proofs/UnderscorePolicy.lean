import Nomenclature.Proofs.ConstantCase
import Nomenclature.Proofs.StandardResolution
import Nomenclature.Proofs.StyleWriting

/-!
# The two underscore policies

Under one policy a style sees a name whole, under the other it sees the pieces between underscores.
An underscore ends a word and is no letter, so neither the words of a name nor the case of its
letters depend on what stands beyond one. The two policies therefore write the same but for
underscores: pascal case leaves them out, snake and constant case leave out the empty pieces, and a
style that changes nothing but the case of all letters, or nothing at all, writes the very same.
-/

namespace Nomenclature

namespace Text

theorem isCaseIgnorable_underscore : isCaseIgnorable '_' = false := by decide +kernel

theorem isCased_underscore : isCased '_' = false := by decide +kernel

/-- No letter follows from beyond an underscore. -/
theorem letterFollows_append_underscore (cs ds : List Char) :
    letterFollows (cs ++ '_' :: ds) = letterFollows cs := by
  induction cs with
  | nil => simp [letterFollows, isCaseIgnorable_underscore, isCased_underscore]
  | cons c rest ih => rw [List.cons_append, letterFollows, letterFollows, ih]

/-- Lower case does not look across an underscore, in neither direction. -/
theorem lowerChars_append_underscore (cs ds : List Char) :
    lowerChars (cs ++ '_' :: ds) = lowerChars cs ++ '_' :: lowerChars ds := by
  have hnone (before : Bool) : letterPrecedes before '_' = false := by
    rw [letterPrecedes, isCaseIgnorable_underscore, if_neg Bool.false_ne_true, isCased_underscore]
  rw [lowerChars, lowerChars]
  generalize false = before
  induction cs generalizing before with
  | nil =>
      rw [List.nil_append, lowerAfter_cons, lowerBetween_of_ascii (by decide), hnone]
      rfl
  | cons c rest ih =>
      rw [List.cons_append, lowerAfter_cons, lowerAfter_cons, ih, lowerBetween, lowerBetween,
        letterFollows_append_underscore, List.append_assoc]

theorem upperChars_append_underscore (cs ds : List Char) :
    upperChars (cs ++ '_' :: ds) = upperChars cs ++ '_' :: upperChars ds := by
  rw [upperChars, List.flatMap_append, List.flatMap_cons, upperChar_of_ascii (by decide)]
  rfl

end Text

namespace Word

section Pieces

variable {cs word : List Char} {words : List (List Char)}

/-- The words of a text are those of its pieces between underscores. -/
theorem ofChars_eq_flatMap_splitOn (cs : List Char) :
    ofChars cs = (cs.splitOn '_').flatMap ofChars := by
  calc
    ofChars cs = ofChars (['_'].intercalate (cs.splitOn '_')) := by
      rw [List.intercalate_splitOn]
    _ = (cs.splitOn '_').flatMap ofChars := ofChars_intercalate_eq_flatMap (by decide) _

theorem underscore_notMem_of_isWord (h : IsWord word) : '_' ∉ word :=
  fun hmem => ne_underscore_of_isWordChar (h.2 '_' hmem) rfl

/-- The pieces of a text between underscores, without the empty ones. -/
def filledPieces (cs : List Char) : List (List Char) :=
  (cs.splitOn '_').filter fun piece => !piece.isEmpty

theorem filledPieces_append_underscore (cs ds : List Char) :
    filledPieces (cs ++ '_' :: ds) = filledPieces cs ++ filledPieces ds := by
  rw [filledPieces, List.splitOn_append_cons_self, List.filter_append]
  rfl

theorem filledPieces_intercalate (parts : List (List Char)) :
    filledPieces (['_'].intercalate parts) = parts.flatMap filledPieces :=
  intercalate_eq_flatMap rfl filledPieces_append_underscore parts

theorem filledPieces_of_isWord (h : IsWord word) : filledPieces word = [word] := by
  rw [filledPieces, List.splitOn_eq_singleton (underscore_notMem_of_isWord h)]
  simp [h.1]

theorem filledPieces_intercalate_words (hwords : ∀ word ∈ words, IsWord word) :
    filledPieces (['_'].intercalate words) = words := by
  calc
    filledPieces (['_'].intercalate words) = words.flatMap filledPieces :=
      filledPieces_intercalate words
    _ = words.flatMap fun word => [word] :=
      List.flatMap_congr fun word hword => filledPieces_of_isWord (hwords word hword)
    _ = words := List.flatMap_singleton' words

end Pieces

end Word

namespace CaseStyle

open Text Word

section Policies

variable {style : CaseStyle}

/-- A style that keeps underscores in their places writes the same under both policies. -/
theorem applyUnder_eq_of_append
    (h : ∀ as bs, style.apply (as ++ '_' :: bs) = style.apply as ++ '_' :: style.apply bs)
    (cs : List Char) : style.applyUnder true cs = style.applyUnder false cs := by
  calc
    style.applyUnder true cs = style.apply (['_'].intercalate (cs.splitOn '_')) := by
      rw [List.intercalate_splitOn]
      rfl
    _ = style.applyUnder false cs :=
      intercalate_map_of_append h (List.splitOn_ne_nil '_' cs)

/-- A style that puts underscores between words writes, whole, the pieces that are not empty. -/
theorem applyUnder_of_joined {f : List Char → List Char}
    (happly : ∀ cs, style.apply cs = ['_'].intercalate ((Word.ofChars cs).map f))
    (hf : ∀ word, IsWord word → IsWord (f word)) (cs : List Char) :
    style.applyUnder true cs =
      ['_'].intercalate (filledPieces (style.applyUnder false cs)) := by
  have hpiece (piece : List Char) :
      filledPieces (style.apply piece) = (Word.ofChars piece).map f := by
    rw [happly]
    apply filledPieces_intercalate_words
    exact List.forall_mem_map.2 fun word hword => hf word (isWord_of_mem_ofChars hword)
  have hpieces : filledPieces (style.applyUnder false cs) = (Word.ofChars cs).map f := by
    calc
      filledPieces (style.applyUnder false cs)
          = ((cs.splitOn '_').map style.apply).flatMap filledPieces :=
        filledPieces_intercalate _
      _ = (cs.splitOn '_').flatMap fun piece => (Word.ofChars piece).map f := by
        rw [List.flatMap_map]
        exact List.flatMap_congr fun piece _ => hpiece piece
      _ = ((cs.splitOn '_').flatMap Word.ofChars).map f := List.map_flatMap.symm
      _ = (Word.ofChars cs).map f := by rw [← ofChars_eq_flatMap_splitOn]
  rw [hpieces, applyUnder_true, happly]

/-- Pascal case writes, whole, what it writes of the pieces without the underscores. -/
theorem applyUnder_pascal (cs : List Char) :
    pascal.applyUnder true cs = (pascal.applyUnder false cs).filter (· != '_') := by
  have hpiece (piece : List Char) :
      (pascal.apply piece).filter (· != '_') = pascal.apply piece := by
    rw [List.filter_eq_self, apply_pascal, glued_ofChars]
    intro c hc
    exact bne_iff_ne.2 (ne_underscore_of_isWordChar (isWordChar_of_mem_recased hc))
  symm
  calc
    (pascal.applyUnder false cs).filter (· != '_')
        = ((cs.splitOn '_').map pascal.apply).flatMap (List.filter (· != '_')) :=
      intercalate_eq_flatMap rfl (fun as bs => by simp) _
    _ = (cs.splitOn '_').flatMap pascal.apply := by
      rw [List.flatMap_map]
      exact List.flatMap_congr fun piece _ => hpiece piece
    _ = (cs.splitOn '_').flatMap fun piece => (Word.ofChars piece).flatMap capitalize := rfl
    _ = ((cs.splitOn '_').flatMap Word.ofChars).flatMap capitalize := List.flatMap_assoc.symm
    _ = pascal.applyUnder true cs := by
      rw [← ofChars_eq_flatMap_splitOn]
      rfl

end Policies

end CaseStyle

namespace NameWriter

open CaseStyle

theorem underscored_filter_pieces (s : String) :
    underscored ((pieces s).filter (· != "")) =
      String.ofList (['_'].intercalate (Word.filledPieces s.toList)) := by
  have hempty : (· != "") ∘ String.ofList = fun piece => !piece.isEmpty := by
    funext piece
    rw [Bool.eq_iff_iff]
    simp
  rw [← String.toList_inj, toList_underscored, pieces, List.filter_map, hempty, List.map_map,
    String.toList_ofList]
  simp [Word.filledPieces, Function.comp_def]

/-- What a writer makes of a name depends on the style and the policy alone, and the two policies
differ in underscores only. -/
theorem write_under_policies (style : CaseStyle) (name : String) :
    ∃ preserved transformed : String,
      (∀ (host : Host) (convention : Convention) (writer : NameWriter) (category : NameCategory),
        ofConvention host convention = .ok writer →
        (convention.strategyOf category).resolve host = .ok (.style style) →
          ∀ policy : Option Bool, writer.write host category name policy = .ok
            (if policy.getD convention.transformUnderscore.isTruthy then transformed
              else preserved)) ∧
      (style = .pascal →
        transformed = String.ofList (preserved.toList.filter (· != '_'))) ∧
      (style ∈ [.snake, .constant] →
        transformed = underscored ((pieces preserved).filter (· != ""))) ∧
      (style ∈ [.keep, .upper, .lower] → transformed = preserved) := by
  refine ⟨String.ofList (style.applyUnder false name.toList),
    String.ofList (style.applyUnder true name.toList), ?_, ?_, ?_, ?_⟩
  · intro host convention writer category hwriter hstyle policy
    rw [write_of_style hwriter hstyle]
    cases policy.getD convention.transformUnderscore.isTruthy <;> rfl
  · rintro rfl
    rw [String.toList_ofList, applyUnder_pascal]
  · intro hstyle
    rw [underscored_filter_pieces, String.toList_ofList]
    congr 1
    rcases List.mem_pair.1 hstyle with rfl | rfl
    · exact applyUnder_of_joined (fun _ => rfl) (fun _ => Word.IsWord.lowerChars) _
    · exact applyUnder_of_joined (fun _ => rfl) (fun _ => Word.IsWord.upperChars) _
  · intro hstyle
    congr 1
    apply applyUnder_eq_of_append
    intro as bs
    simp only [List.mem_cons, List.not_mem_nil, or_false] at hstyle
    rcases hstyle with rfl | rfl | rfl
    · rfl
    · exact Text.upperChars_append_underscore as bs
    · exact Text.lowerChars_append_underscore as bs

/-- Underscores in front, at the end and side by side, and a word that ends without one. -/
theorem write_under_policies_snake :
    ∃ writer, ofConvention Host.bare ⟨.named "snakeCase", .named "keep", .boolean false⟩ =
        .ok writer ∧
      Strategy.resolve Host.bare (.named "snakeCase") = .ok (.style .snake) ∧
      writer.write Host.bare .typeNames "_userId__2_" none = .ok "_user_id__2_" ∧
      writer.write Host.bare .typeNames "_userId__2_" (some true) = .ok "user_id_2" := by
  obtain ⟨preserved, transformed, hwrite, -, hsnake, -⟩ :=
    write_under_policies .snake "_userId__2_"
  have hwriter : ofConvention Host.bare ⟨.named "snakeCase", .named "keep", .boolean false⟩ =
      .ok ⟨⟨.named "snakeCase", .named "keep", .boolean false⟩, some (.style .snake), none⟩ := rfl
  have hpolicies := hwrite Host.bare _ _ .typeNames hwriter rfl
  have hpreserved : Except.ok "_user_id__2_" = Except.ok preserved := hpolicies none
  have htransformed : transformed = "user_id_2" := by
    rw [hsnake (by decide), ← Except.ok.inj hpreserved]
    decide
  refine ⟨_, hwriter, rfl, rfl, ?_⟩
  rw [← htransformed]
  exact hpolicies (some true)

end NameWriter

end Nomenclature
