import Nomenclature.Proofs.ModuleLoading
import Nomenclature.Proofs.UnderscorePolicy

/-!
# Underscores that are preserved

Where underscores are preserved, a name is written piece by piece, and what is written of two names
with an underscore between them is what is written of either, with the underscore between. So every
underscore stays in its place, between what is made of the pieces around it. A function that makes no
underscore of what has none adds no others, and then the pieces of what is written are what the
function makes of the pieces of the name. Of the built-in styles, all but the two that join words
with underscores are such: no letter has an underscore for its other case.
-/

namespace Nomenclature

/-- Between texts that hold no separator, there is one separator less than there are texts. -/
theorem count_intercalate {α : Type} [DecidableEq α] {s : α} {parts : List (List α)}
    (hparts : ∀ part ∈ parts, s ∉ part) : ([s].intercalate parts).count s = parts.length - 1 := by
  induction parts with
  | nil => rfl
  | cons part rest ih =>
      obtain ⟨hpart, hrest⟩ := List.forall_mem_cons.1 hparts
      cases rest with
      | nil => rw [List.intercalate_singleton, List.count_eq_zero.2 hpart]; rfl
      | cons next rest =>
          rw [List.intercalate_cons_cons, List.count_append, List.count_append,
            List.count_eq_zero.2 hpart, List.count_singleton_self, ih hrest]
          simp [Nat.add_comm]

namespace Text

theorem ofNat_ne_underscore {code : Nat} (hcode : code ≠ 95) : Char.ofNat code ≠ '_' := by
  intro h
  have hcodes := congrArg Char.toNat h
  rw [Char.toNat_ofNat] at hcodes
  split at hcodes
  · exact hcode hcodes
  · exact absurd hcodes (by decide)

/-- Inside ASCII only the underscore itself has an underscore for its other case. -/
theorem eq_underscore_of_ascii {c : Char} (hc : c.toNat < 128)
    (h : c.toUpper = '_' ∨ c.toLower = '_') : c = '_' := by
  have hascii : ∀ code < 128,
      (Char.ofNat code).toUpper = '_' ∨ (Char.ofNat code).toLower = '_' → code = 95 := by
    decide
  have hcode : c.toNat = 95 := hascii c.toNat hc (by rwa [Char.ofNat_toNat])
  rw [← Char.ofNat_toNat c, hcode]

theorem underscore_notMem_upperChar {c : Char} (hc : c ≠ '_') : '_' ∉ upperChar c := by
  have hexpansions : upperExpansions.all (fun expansion => expansion.2.all (· != 95)) = true := by
    decide +kernel
  have hruns : upperRuns.all (fun run =>
      run.last + run.shift < 95 || 95 < run.first + run.shift) = true := by
    decide +kernel
  rw [upperChar]
  split
  · rename_i hascii
    intro h
    exact hc (eq_underscore_of_ascii hascii (.inl (List.mem_singleton.1 h).symm))
  · rw [counterpart]
    split
    · rename_i codes hcodes
      obtain ⟨before, after, htable, -⟩ := List.lookup_eq_some_iff.1 hcodes
      have hmem : (c.toNat, codes) ∈ upperExpansions := by simp [htable]
      have hcode := List.all_eq_true.1 (List.all_eq_true.1 hexpansions _ hmem)
      intro h
      obtain ⟨code, hcodeMem, hunderscore⟩ := List.mem_map.1 h
      exact ofNat_ne_underscore (bne_iff_ne.1 (hcode code hcodeMem)) hunderscore
    · split
      · rename_i run hrun
        have hrange := List.all_eq_true.1 hruns run (List.mem_of_find?_eq_some hrun)
        have hcovers := List.find?_some hrun
        simp only [CaseRun.covers, Bool.and_eq_true, Bool.or_eq_true, decide_eq_true_eq]
          at hrange hcovers
        intro h
        refine ofNat_ne_underscore ?_ (List.mem_singleton.1 h).symm
        rw [CaseRun.image]
        omega
      · exact fun h => hc (List.mem_singleton.1 h).symm

theorem underscore_notMem_upperChars {cs : List Char} (hcs : '_' ∉ cs) : '_' ∉ upperChars cs := by
  intro h
  obtain ⟨c, hc, hupper⟩ := List.mem_flatMap.1 h
  have hne : c ≠ '_' := by
    rintro rfl
    exact hcs hc
  exact underscore_notMem_upperChar hne hupper

theorem underscore_notMem_lowerChars {cs : List Char} (hcs : '_' ∉ cs) : '_' ∉ lowerChars cs := by
  rw [lowerChars]
  generalize false = before
  induction cs generalizing before with
  | nil => exact List.not_mem_nil
  | cons c rest ih =>
      rw [List.mem_cons, not_or] at hcs
      rw [lowerAfter_cons, List.mem_append, not_or]
      refine ⟨fun h => ?_, ih hcs.2 _⟩
      obtain ⟨hascii, hlower⟩ := toLower_of_mem_lowerBetween h (by decide)
      exact hcs.1 (eq_underscore_of_ascii hascii (.inr hlower)).symm

end Text

namespace CaseStyle

open Text Word

section

variable {style : CaseStyle} {cs : List Char}

theorem underscore_notMem_upperInitial (hcs : '_' ∉ cs) : '_' ∉ upperInitial cs := by
  cases cs with
  | nil => exact List.not_mem_nil
  | cons c rest =>
      rw [List.mem_cons, not_or] at hcs
      rw [upperInitial, List.mem_append, not_or]
      exact ⟨underscore_notMem_upperChars (by simpa using hcs.1), hcs.2⟩

theorem underscore_notMem_lowerInitial (hcs : '_' ∉ cs) : '_' ∉ lowerInitial cs := by
  cases cs with
  | nil => exact List.not_mem_nil
  | cons c rest =>
      rw [List.mem_cons, not_or] at hcs
      rw [lowerInitial, List.mem_append, not_or]
      exact ⟨underscore_notMem_lowerChars (by simpa using hcs.1), hcs.2⟩

theorem underscore_notMem_recased (starts : Bool) (cs : List Char) :
    '_' ∉ recased starts cs :=
  fun h => ne_underscore_of_isWordChar (isWordChar_of_mem_recased h) rfl

/-- Words with another separator between them hold no underscore. -/
theorem underscore_notMem_joined {separator : Char} (hseparator : separator ≠ '_')
    {f : List Char → List Char} (hf : ∀ word, IsWord word → IsWord (f word)) (cs : List Char) :
    '_' ∉ [separator].intercalate ((Word.ofChars cs).map f) := by
  have hne : ∀ c ∈ [separator].intercalate ((Word.ofChars cs).map f), c ≠ '_' := by
    apply forall_mem_intercalate (p := (· ≠ '_')) hseparator
    refine List.forall_mem_map.2 fun word hword c hc => ?_
    exact ne_underscore_of_isWordChar ((hf word (isWord_of_mem_ofChars hword)).2 c hc)
  exact fun h => hne '_' h rfl

/-- Only snake and constant case write underscores where there is none. -/
theorem underscore_notMem_apply (hstyle : style ∉ [snake, constant]) (hcs : '_' ∉ cs) :
    '_' ∉ style.apply cs := by
  cases style
  case snake | constant => exact absurd (by decide) hstyle
  case pascal =>
    rw [apply_pascal, glued_ofChars]
    exact underscore_notMem_recased true cs
  case camel =>
    rw [apply_camel, glued_ofChars]
    exact underscore_notMem_recased false cs
  case param | dot | path | spaced =>
    exact underscore_notMem_joined (by decide) (fun _ => IsWord.lowerChars) cs
  case capital | header =>
    exact underscore_notMem_joined (by decide) (fun _ => IsWord.capitalize) cs
  case sentence =>
    apply underscore_notMem_upperInitial
    exact underscore_notMem_joined (by decide) (fun _ => IsWord.lowerChars) cs
  case lower => exact underscore_notMem_lowerChars hcs
  case upper => exact underscore_notMem_upperChars hcs
  case lowerFirst => exact underscore_notMem_lowerInitial hcs
  case upperFirst => exact underscore_notMem_upperInitial hcs
  case keep => exact hcs

end

end CaseStyle

namespace NameWriter

open CaseStyle

variable {host : Host} {f : Callable} {names parts others : List String}

/-! ## Pieces -/

theorem pieces_append (a b : String) : pieces (a ++ "_" ++ b) = pieces a ++ pieces b := by
  have hchars : (a ++ "_" ++ b).toList = a.toList ++ '_' :: b.toList := by simp
  rw [pieces, hchars, List.splitOn_append_cons_self, List.map_append, pieces, pieces]

theorem pieces_ne_nil (s : String) : pieces s ≠ [] := by
  rw [pieces, ne_eq, List.map_eq_nil_iff]
  exact List.splitOn_ne_nil '_' s.toList

theorem underscore_notMem_of_mem_pieces {s : String} :
    ∀ piece ∈ pieces s, '_' ∉ piece.toList := by
  refine List.forall_mem_map.2 fun piece hpiece => ?_
  rw [String.toList_ofList]
  exact not_mem_of_mem_splitOn hpiece

theorem underscored_pieces (s : String) : underscored (pieces s) = s := by
  rw [← String.toList_inj, toList_underscored, pieces, List.map_map]
  simp [Function.comp_def, List.intercalate_splitOn]

/-- Parts without underscores are the pieces of what they are put together to. -/
theorem pieces_underscored (hparts : parts ≠ []) (hclean : ∀ part ∈ parts, '_' ∉ part.toList) :
    pieces (underscored parts) = parts := by
  have hsplit : (['_'].intercalate (parts.map String.toList)).splitOn '_' =
      parts.map String.toList :=
    List.splitOn_intercalate '_' (List.forall_mem_map.2 hclean) (by simpa using hparts)
  rw [pieces, toList_underscored, hsplit, List.map_map]
  simp [Function.comp_def]

theorem count_underscored (hclean : ∀ part ∈ parts, '_' ∉ part.toList) :
    (underscored parts).toList.count '_' = parts.length - 1 := by
  rw [toList_underscored, count_intercalate (List.forall_mem_map.2 hclean), List.length_map]

/-! ## Names written piece by piece -/

theorem appliedEach_eq_ok_iff : appliedEach host f names = .ok parts ↔
    List.Forall₂ (fun name part => applied host f name = .ok part) names parts := by
  induction names generalizing parts with
  | nil =>
      rw [appliedEach, Except.ok.injEq, List.forall₂_nil_left_iff]
      exact eq_comm
  | cons name rest ih =>
      rw [appliedEach, List.forall₂_cons_left_iff]
      simp only [bind_eq_ok_iff, ih]
      constructor
      · rintro ⟨first, hfirst, others, hothers, h⟩
        exact ⟨first, others, hfirst, hothers, (Except.ok.inj h).symm⟩
      · rintro ⟨first, others, hfirst, hothers, rfl⟩
        exact ⟨first, hfirst, others, hothers, rfl⟩

theorem appliedEach_append (names others : List String) :
    appliedEach host f (names ++ others) = do
      let parts ← appliedEach host f names
      let rest ← appliedEach host f others
      return parts ++ rest := by
  induction names with
  | nil =>
      rw [List.nil_append]
      cases appliedEach host f others <;> rfl
  | cons name rest ih =>
      rw [List.cons_append, appliedEach, appliedEach, ih]
      cases applied host f name with
      | error fault => rfl
      | ok first =>
          cases appliedEach host f rest with
          | error fault => rfl
          | ok parts => cases appliedEach host f others <;> rfl

theorem ne_nil_of_appliedEach {s : String} (h : appliedEach host f (pieces s) = .ok parts) :
    parts ≠ [] := by
  rintro rfl
  exact pieces_ne_nil s (List.forall₂_nil_right_iff.1 (appliedEach_eq_ok_iff.1 h))

/-- One underscore: two names are written one after the other, up to the first fault. -/
theorem writeText_append (host : Host) (f : Callable) (a b : String) :
    writeText host f false (a ++ "_" ++ b) = do
      let first ← writeText host f false a
      let second ← writeText host f false b
      return first ++ "_" ++ second := by
  have hwrite (s : String) : writeText host f false s = do
      let parts ← appliedEach host f (pieces s)
      return underscored parts := rfl
  rw [hwrite, hwrite, hwrite, pieces_append, appliedEach_append]
  cases hfirst : appliedEach host f (pieces a) with
  | error fault => rfl
  | ok parts =>
      cases hsecond : appliedEach host f (pieces b) with
      | error fault => rfl
      | ok rest =>
          apply congrArg Except.ok
          exact String.intercalate_append_of_ne_nil (ne_nil_of_appliedEach hfirst)
            (ne_nil_of_appliedEach hsecond)

/-- A text of underscores only. -/
def underscores (n : Nat) : String :=
  String.ofList (List.replicate n '_')

theorem underscores_succ (n : Nat) : underscores (n + 1) = "_" ++ underscores n := by
  rw [← String.toList_inj, underscores, underscores, List.replicate_succ]
  simp

theorem underscored_cons_cons (first second : String) (rest : List String) :
    underscored (first :: second :: rest) = first ++ "_" ++ underscored (second :: rest) :=
  String.intercalate_cons_cons

/-- Any number of underscores: between them stands what the function makes of nothing. -/
theorem writeText_append_underscores {nothing : String}
    (hnothing : applied host f "" = .ok nothing) (n : Nat) (a b : String) :
    writeText host f false (a ++ underscores (n + 1) ++ b) = do
      let first ← writeText host f false a
      let second ← writeText host f false b
      return underscored (first :: (List.replicate n nothing ++ [second])) := by
  induction n generalizing a with
  | zero => exact writeText_append host f a b
  | succ n ih =>
      have hempty : writeText host f false "" = .ok nothing := by
        have hpieces : pieces "" = [""] := rfl
        rw [writeText, if_neg Bool.false_ne_true, hpieces, appliedEach, hnothing]
        exact congrArg Except.ok String.intercalate_singleton
      have hname : a ++ underscores (n + 1 + 1) ++ b =
          a ++ "_" ++ ("" ++ underscores (n + 1) ++ b) := by
        rw [underscores_succ]
        simp [String.append_assoc]
      rw [hname, writeText_append, ih, hempty]
      cases writeText host f false a with
      | error fault => rfl
      | ok first =>
          cases writeText host f false b with
          | error fault => rfl
          | ok second =>
              apply congrArg Except.ok
              rw [List.replicate_succ, List.cons_append, underscored_cons_cons]

theorem underscored_replicate (n : Nat) (first second : String) :
    underscored (first :: (List.replicate n "" ++ [second])) =
      first ++ underscores (n + 1) ++ second := by
  induction n generalizing first with
  | zero => exact underscored_cons_cons first second []
  | succ n ih =>
      rw [List.replicate_succ, List.cons_append, underscored_cons_cons, ih, underscores_succ (n + 1)]
      simp [String.append_assoc]

/-- A function that makes no underscore of what has none. -/
def AddsNoUnderscore (host : Host) (f : Callable) : Prop :=
  ∀ s t, '_' ∉ s.toList → applied host f s = .ok t → '_' ∉ t.toList

/-- The function returns for each of the pieces of a name. -/
def ReturnsOn (host : Host) (f : Callable) (name : String) : Prop :=
  ∀ piece ∈ pieces name, ∃ part, applied host f piece = .ok part

theorem exists_parts {name : String} (hname : ReturnsOn host f name) : ∃ parts,
    List.Forall₂ (fun piece part => applied host f piece = .ok part) (pieces name) parts ∧
      parts ≠ [] ∧ writeText host f false name = .ok (underscored parts) := by
  obtain ⟨parts, hparts⟩ := (exists_forall₂_iff _).2 hname
  have happlied := appliedEach_eq_ok_iff.2 hparts
  refine ⟨parts, hparts, ne_nil_of_appliedEach happlied, ?_⟩
  rw [writeText, if_neg Bool.false_ne_true, happlied]
  rfl

/-- A way to write names that leaves underscores where they are. -/
structure PreservesUnderscores (host : Host) (f : Callable)
    (write : String → Except Fault String) : Prop where
  /-- What stands on both sides of an underscore is written by itself, up to the first fault. -/
  append : ∀ a b, write (a ++ "_" ++ b) = do
    let first ← write a
    let second ← write b
    return first ++ "_" ++ second
  append_of_returns : ∀ a b, ReturnsOn host f a → ReturnsOn host f b →
    ∃ first second, write a = .ok first ∧ write b = .ok second ∧
      write (a ++ "_" ++ b) = .ok (first ++ "_" ++ second)
  /-- The pieces of what is written are what the function makes of the pieces of the name. -/
  pieces : AddsNoUnderscore host f → ∀ name, ReturnsOn host f name → ∃ written,
    write name = .ok written ∧
      List.Forall₂ (fun piece part => applied host f piece = .ok part) (pieces name)
        (pieces written) ∧
      written.toList.count '_' = name.toList.count '_'
  /-- Of underscores side by side every one stays, with what the function makes of nothing between
  them. -/
  run : ∀ nothing, applied host f "" = .ok nothing → ∀ n a b,
    write (a ++ underscores (n + 1) ++ b) = do
      let first ← write a
      let second ← write b
      return underscored (first :: (List.replicate n nothing ++ [second]))
  /-- So where the function makes nothing of nothing, underscores in front, at the end and side by
  side stay so. -/
  run_of_empty : applied host f "" = .ok "" → ∀ n a b,
    write (a ++ underscores (n + 1) ++ b) = do
      let first ← write a
      let second ← write b
      return first ++ underscores (n + 1) ++ second

theorem preservesUnderscores_writeText (host : Host) (f : Callable) :
    PreservesUnderscores host f (writeText host f false) where
  append := writeText_append host f
  append_of_returns a b ha hb := by
    obtain ⟨parts, -, -, hfirst⟩ := exists_parts ha
    obtain ⟨others, -, -, hsecond⟩ := exists_parts hb
    refine ⟨_, _, hfirst, hsecond, ?_⟩
    rw [writeText_append, hfirst, hsecond]
    rfl
  pieces hf name hname := by
    obtain ⟨parts, hparts, hne, hwrite⟩ := exists_parts hname
    have hclean : ∀ part ∈ parts, '_' ∉ part.toList :=
      forall_of_forall₂
        ((List.forall₂_and_left _ _).2 ⟨underscore_notMem_of_mem_pieces, hparts⟩)
        fun piece part h => hf piece part h.1 h.2
    refine ⟨underscored parts, hwrite, ?_, ?_⟩
    · rwa [pieces_underscored hne hclean]
    · calc
        (underscored parts).toList.count '_' = parts.length - 1 := count_underscored hclean
        _ = (NameWriter.pieces name).length - 1 := by rw [hparts.length_eq]
        _ = (underscored (NameWriter.pieces name)).toList.count '_' :=
          (count_underscored underscore_notMem_of_mem_pieces).symm
        _ = name.toList.count '_' := by rw [underscored_pieces]
  run nothing hnothing n a b := writeText_append_underscores hnothing n a b
  run_of_empty hempty n a b := by
    simp only [writeText_append_underscores hempty, underscored_replicate]

/-! ## Writers -/

/-- The function by which a writer writes the names of a category. Kept names are written in the
style that keeps them. -/
def functionOrKeep (writer : NameWriter) (category : NameCategory) : Callable :=
  (writer.functionFor category).getD (.style .keep)

theorem write_eq_functionOrKeep (host : Host) (writer : NameWriter) (category : NameCategory)
    (name : String) (policy : Option Bool) :
    writer.write host category name policy = writeText host (writer.functionOrKeep category)
      (policy.getD writer.convention.transformUnderscore.isTruthy) name := by
  rw [write, functionOrKeep]
  cases writer.functionFor category with
  | none => exact (writeText_keep _ name).symm
  | some f => rfl

theorem functionOrKeep_eq {convention : Convention} {writer : NameWriter}
    {category : NameCategory} (hwriter : ofConvention host convention = .ok writer)
    (hf : (convention.strategyOf category).resolve host = .ok f) :
    writer.functionOrKeep category = f := by
  rw [functionOrKeep, functionFor_eq hwriter hf]
  by_cases hidentity : convention.strategyOf category = Strategy.identity
  · rw [hidentity, resolve_identity] at hf
    rw [if_pos hidentity]
    exact Except.ok.inj hf
  · rw [if_neg hidentity]
    rfl

theorem applied_style (host : Host) (style : CaseStyle) (s : String) :
    applied host (.style style) s = .ok (style.write s) := rfl

theorem addsNoUnderscore_style_iff (host : Host) (style : CaseStyle) :
    AddsNoUnderscore host (.style style) ↔ style ∉ [snake, constant] := by
  constructor
  · intro h hstyle
    rcases List.mem_pair.1 hstyle with rfl | rfl
    · exact h "aB" "a_b" (by decide) rfl (by decide)
    · exact h "aB" "A_B" (by decide) rfl (by decide)
  · intro hstyle s t hs ht
    rw [applied_style] at ht
    rw [← Except.ok.inj ht, CaseStyle.write, String.toList_ofList]
    exact underscore_notMem_apply hstyle hs

/-- Where underscores are preserved, a writer leaves them where they are, whatever function a
category has and also where names are kept. The function is the one that the strategy of the
category stands for; the built-in styles return for every name and write nothing for nothing, and
all but snake and constant case make no underscore of what has none. -/
theorem preservesUnderscores_write (host : Host) (writer : NameWriter) (category : NameCategory)
    (policy : Option Bool)
    (hpolicy : policy.getD writer.convention.transformUnderscore.isTruthy = false) :
    PreservesUnderscores host (writer.functionOrKeep category)
        (fun name => writer.write host category name policy) ∧
      (∀ convention f, ofConvention host convention = .ok writer →
        (convention.strategyOf category).resolve host = .ok f →
          writer.functionOrKeep category = f) ∧
      ∀ style : CaseStyle,
        (∀ s, applied host (.style style) s = .ok (style.write s)) ∧ style.write "" = "" ∧
          (AddsNoUnderscore host (.style style) ↔ style ∉ [snake, constant]) := by
  refine ⟨?_, fun convention f => functionOrKeep_eq, fun style => ⟨?_, ?_, ?_⟩⟩
  · have hwrite : (fun name => writer.write host category name policy) =
        writeText host (writer.functionOrKeep category) false := by
      funext name
      rw [write_eq_functionOrKeep, hpolicy]
    rw [hwrite]
    exact preservesUnderscores_writeText host _
  · exact applied_style host style
  · cases style <;> rfl
  · exact addsNoUnderscore_style_iff host style

def size : HostFunction :=
  ⟨"tools", "size", "tools#size", "<function size>", "function"⟩

/-- A host with one module, of which one function tells how long a name is. -/
def sizeHost : Host :=
  ⟨[("tools", .loaded false [("size", .callable (.host size))])],
    fun _ s => .ok (.integer s.length)⟩

/-- A writer of which one function returns numbers and the other one writes camel case. -/
def sizeWriter : NameWriter :=
  ⟨⟨.named "tools#size", .named "camelCase", .boolean false⟩, some (.host size),
    some (.style .camel)⟩

/-- Underscores side by side, and on all sides of a name. -/
theorem preservesUnderscores_write_size :
    ofConvention sizeHost sizeWriter.convention = .ok sizeWriter ∧
      (none : Option Bool).getD sizeWriter.convention.transformUnderscore.isTruthy = false ∧
      sizeWriter.write sizeHost .typeNames ("user_" ++ "_" ++ "id") none = .ok "4_0_2" ∧
      ∃ written, sizeWriter.write sizeHost .enumValues "__userId_x_" none = .ok written ∧
        written.toList.count '_' = 4 := by
  have hpolicy : (none : Option Bool).getD sizeWriter.convention.transformUnderscore.isTruthy =
      false := rfl
  refine ⟨rfl, hpolicy, ?_, ?_⟩
  · obtain ⟨htypes, -⟩ := preservesUnderscores_write sizeHost sizeWriter .typeNames none hpolicy
    exact (htypes.append "user_" "id").trans rfl
  · obtain ⟨henums, -, hstyles⟩ :=
      preservesUnderscores_write sizeHost sizeWriter .enumValues none hpolicy
    obtain ⟨hreturns, -, hclean⟩ := hstyles .camel
    obtain ⟨written, hwritten, -, hcount⟩ := henums.pieces (hclean.2 (by decide)) "__userId_x_"
      fun piece _ => ⟨_, hreturns piece⟩
    exact ⟨written, hwritten, hcount⟩

end NameWriter

end Nomenclature
