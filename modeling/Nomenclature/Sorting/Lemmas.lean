import Nomenclature.Sorting.Adaptive

/-!
# Sorting keeps the entries

However the comparisons turn out, the outcome of a sort consists of the entries that were given. The
lemmas say so of every step: of runs and their extension, of a merge and its stretches, and of the
stack of runs that wait to be merged.
-/

namespace Nomenclature.Sorting

variable {α : Type} {below? : Comparison α}

theorem append_of_runAfter? {descending : Bool} {last : α} {entries run others : List α}
    (h : runAfter? below? descending last entries = some (run, others)) :
    run ++ others = entries := by
  induction entries generalizing last run others with
  | nil =>
    obtain ⟨rfl, rfl⟩ : [] = run ∧ [] = others := by simpa [runAfter?] using h
    rfl
  | cons x rest ih =>
    cases hx : below? x last with
    | none => simp [runAfter?, hx] at h
    | some b =>
      by_cases hb : b = descending
      · cases hr : runAfter? below? descending x rest with
        | none => simp [runAfter?, hx, hb, hr] at h
        | some parts =>
          obtain ⟨rfl, rfl⟩ : x :: parts.1 = run ∧ parts.2 = others := by
            simpa [runAfter?, hx, hb, hr] using h
          simp [ih hr]
      · obtain ⟨rfl, rfl⟩ : [] = run ∧ x :: rest = others := by
          simpa [runAfter?, hx, hb] using h
        rfl

theorem perm_of_firstRun? {entries run others : List α}
    (h : firstRun? below? entries = some (run, others)) : (run ++ others).Perm entries := by
  match entries, h with
  | [], h =>
    obtain ⟨rfl, rfl⟩ : [] = run ∧ [] = others := by simpa [firstRun?] using h
    exact .refl _
  | [x], h =>
    obtain ⟨rfl, rfl⟩ : [x] = run ∧ [] = others := by simpa [firstRun?] using h
    exact .refl _
  | x :: y :: rest, h =>
    cases hd : below? y x with
    | none => simp [firstRun?, hd] at h
    | some descending =>
      cases hr : runAfter? below? descending y rest with
      | none => simp [firstRun?, hd, hr] at h
      | some parts =>
        obtain ⟨hrun, rfl⟩ : (if descending then (x :: y :: parts.1).reverse
            else x :: y :: parts.1) = run ∧ parts.2 = others := by
          simpa [firstRun?, hd, hr] using h
        have whole : x :: y :: parts.1 ++ parts.2 = x :: y :: rest := by
          simp [append_of_runAfter? hr]
        rw [← whole, ← hrun]
        refine List.Perm.append_right _ ?_
        split
        · exact List.reverse_perm _
        · exact .refl _

theorem perm_of_insertBisecting? {x : α} {run placed : List α}
    (h : insertBisecting? below? x run = some placed) : placed.Perm (x :: run) := by
  cases hn : bisect? .front (below?.isNot x) run.length run with
  | none => simp [insertBisecting?, hn] at h
  | some place =>
    obtain rfl : run.take place ++ x :: run.drop place = placed := by
      simpa [insertBisecting?, hn] using h
    exact List.perm_middle.trans (by rw [List.take_append_drop])

theorem perm_of_insertEach? {run entries placed : List α}
    (h : insertEach? below? run entries = some placed) : placed.Perm (run ++ entries) := by
  induction entries generalizing run placed with
  | nil =>
    obtain rfl : run = placed := by simpa [insertEach?] using h
    simp
  | cons x rest ih =>
    cases hx : insertBisecting? below? x run with
    | none => simp [insertEach?, hx] at h
    | some next =>
      have hrest : insertEach? below? next rest = some placed := by
        simpa [insertEach?, hx] using h
      refine (ih hrest).trans ?_
      exact ((perm_of_insertBisecting? hx).append_right _).trans List.perm_middle.symm

theorem perm_of_extendedRun? {least : Nat} {entries run others : List α}
    (h : extendedRun? below? least entries = some (run, others)) :
    (run ++ others).Perm entries := by
  cases hf : firstRun? below? entries with
  | none => simp [extendedRun?, hf] at h
  | some parts =>
    cases hi : insertEach? below? parts.1 (parts.2.take (least - parts.1.length)) with
    | none => simp [extendedRun?, hf, hi] at h
    | some extended =>
      obtain ⟨rfl, rfl⟩ : extended = run ∧ parts.2.drop (least - parts.1.length) = others := by
        simpa [extendedRun?, hf, hi] using h
      refine ((perm_of_insertEach? hi).append_right _).trans ?_
      rw [List.append_assoc, List.take_append_drop]
      exact perm_of_firstRun? hf

theorem perm_of_settled? {holding yielding rest : List α}
    (h : settled? holding yielding = some rest) : rest.Perm (holding ++ yielding) := by
  match holding, yielding, h with
  | [], yielding, h =>
    obtain rfl : yielding = rest := by simpa [settled?] using h
    exact .refl _
  | x :: holding, [], h =>
    obtain rfl : x :: holding = rest := by simpa [settled?] using h
    simp
  | [x], y :: yielding, h =>
    obtain rfl : y :: (yielding ++ [x]) = rest := by simpa [settled?] using h
    exact (List.perm_append_comm : ([x] ++ y :: yielding).Perm _).symm

/-- What a stretch puts out and what it leaves are the entries of the two runs. -/
def Stretch.KeepsEntries (stretch : Stretch α) (holding yielding : List α) : Prop :=
  (stretch.out ++ (stretch.holding ++ stretch.yielding)).Perm (holding ++ yielding)

namespace Merge

variable {m : Merge α}

theorem keepsEntries_of_step? {holding yielding : List α} {stretch : Stretch α}
    (h : m.step? holding yielding = some stretch) : stretch.KeepsEntries holding yielding := by
  match holding, yielding, h with
  | [], yielding, h =>
    obtain rfl : ⟨[], [], yielding, false, 0⟩ = stretch := by simpa [step?] using h
    exact .refl _
  | x :: holding, [], h =>
    obtain rfl : ⟨[], x :: holding, [], false, 0⟩ = stretch := by simpa [step?] using h
    exact .refl _
  | x :: holding, y :: yielding, h =>
    cases hw : m.before? y x with
    | none => simp [step?, hw] at h
    | some wins =>
      cases wins with
      | true =>
        obtain rfl : ⟨[y], x :: holding, yielding, true, 0⟩ = stretch := by
          simpa [step?, hw] using h
        show (y :: ((x :: holding) ++ yielding)).Perm ((x :: holding) ++ y :: yielding)
        exact List.perm_middle.symm
      | false =>
        obtain rfl : ⟨[x], holding, y :: yielding, false, 0⟩ = stretch := by
          simpa [step?, hw] using h
        exact .refl _

theorem keepsEntries_of_holdingStretch? {holding yielding : List α} {stretch : Stretch α}
    (h : m.holdingStretch? holding yielding = some stretch) :
    stretch.KeepsEntries holding yielding := by
  match yielding, h with
  | [], h =>
    obtain rfl : ⟨[], holding, [], false, 0⟩ = stretch := by simpa [holdingStretch?] using h
    exact .refl _
  | y :: yielding, h =>
    cases hn : gallop? m.side (m.before?.isNot y) holding with
    | none => simp [holdingStretch?, hn] at h
    | some found =>
      obtain rfl : ⟨holding.take found ++ [y], holding.drop found, yielding, true, found⟩ =
          stretch := by
        simpa [holdingStretch?, hn] using h
      rw [Stretch.KeepsEntries, List.append_assoc, List.singleton_append]
      refine List.perm_middle.trans (.trans ?_ List.perm_middle.symm)
      rw [← List.append_assoc, List.take_append_drop]

theorem keepsEntries_of_yieldingStretch? {holding yielding : List α} {stretch : Stretch α}
    (h : m.yieldingStretch? yielding holding = some stretch) :
    stretch.KeepsEntries holding yielding := by
  match holding, h with
  | [], h =>
    obtain rfl : ⟨[], [], yielding, false, 0⟩ = stretch := by simpa [yieldingStretch?] using h
    exact .refl _
  | x :: holding, h =>
    cases hn : gallop? m.side (m.before? · x) yielding with
    | none => simp [yieldingStretch?, hn] at h
    | some found =>
      obtain rfl : ⟨yielding.take found ++ [x], holding, yielding.drop found, false, found⟩ =
          stretch := by
        simpa [yieldingStretch?, hn] using h
      rw [Stretch.KeepsEntries, List.append_assoc, List.singleton_append]
      refine List.perm_middle.trans (.cons x ?_)
      refine (List.Perm.append_left _ List.perm_append_comm).trans ?_
      rw [← List.append_assoc, List.take_append_drop]
      exact List.perm_append_comm

theorem keepsEntries_of_firstStretch? {holding yielding : List α} {stretch : Stretch α}
    (h : m.firstStretch? holding yielding = some stretch) :
    stretch.KeepsEntries holding yielding := by
  cases hs : m.side with
  | front => exact keepsEntries_of_holdingStretch? (by simpa [firstStretch?, hs] using h)
  | back => exact keepsEntries_of_yieldingStretch? (by simpa [firstStretch?, hs] using h)

theorem keepsEntries_of_secondStretch? {holding yielding : List α} {stretch : Stretch α}
    (h : m.secondStretch? holding yielding = some stretch) :
    stretch.KeepsEntries holding yielding := by
  cases hs : m.side with
  | front => exact keepsEntries_of_yieldingStretch? (by simpa [secondStretch?, hs] using h)
  | back => exact keepsEntries_of_holdingStretch? (by simpa [secondStretch?, hs] using h)

theorem keepsEntries_of_gallopStretch? {holding yielding : List α} {stretch : Stretch α}
    (h : m.gallopStretch? holding yielding = some stretch) :
    stretch.KeepsEntries holding yielding := by
  cases hf : m.firstStretch? holding yielding with
  | none => simp [gallopStretch?, hf] at h
  | some first =>
    have keepsFirst := keepsEntries_of_firstStretch? hf
    by_cases hs : (settled? first.holding first.yielding).isSome
    · obtain rfl : first = stretch := by simpa [gallopStretch?, hf, hs] using h
      exact keepsFirst
    · cases hg : m.secondStretch? first.holding first.yielding with
      | none => simp [gallopStretch?, hf, hs, hg] at h
      | some second =>
        have keepsSecond := keepsEntries_of_secondStretch? hg
        obtain rfl : { second with
            out := first.out ++ second.out, found := max first.found second.found } =
              stretch := by
          simpa [gallopStretch?, hf, hs, hg] using h
        rw [Stretch.KeepsEntries, List.append_assoc]
        exact (keepsSecond.append_left _).trans keepsFirst

theorem keepsEntries_of_stretch? {holding yielding : List α} {pace : Pace} {stretch : Stretch α}
    (h : m.stretch? holding yielding pace = some stretch) :
    stretch.KeepsEntries holding yielding := by
  cases pace with
  | stepping => exact keepsEntries_of_step? h
  | galloping => exact keepsEntries_of_gallopStretch? h

theorem perm_of_goOn? {bound patience next left : Nat} {pace : Pace}
    {holding yielding merged : List α}
    (h : m.goOn? bound pace patience next holding yielding = some (merged, left)) :
    merged.Perm (holding ++ yielding) := by
  induction bound generalizing pace patience next left holding yielding merged with
  | zero =>
    obtain ⟨rfl, _⟩ : holding ++ yielding = merged ∧ patience = left := by simpa [goOn?] using h
    exact .refl _
  | succ bound ih =>
    cases hs : settled? holding yielding with
    | some rest =>
      obtain ⟨rfl, _⟩ : rest = merged ∧ patience = left := by simpa [goOn?, hs] using h
      exact perm_of_settled? hs
    | none =>
      cases ht : m.stretch? holding yielding pace with
      | none => simp [goOn?, hs, ht] at h
      | some stretch =>
        cases hr : m.goOn? bound (pace.after stretch next).1 next (pace.after stretch next).2
            stretch.holding stretch.yielding with
        | none => simp [goOn?, hs, ht, hr] at h
        | some rest =>
          obtain ⟨rfl, _⟩ : stretch.out ++ rest.1 = merged ∧ rest.2 = left := by
            simpa [goOn?, hs, ht, hr] using h
          exact ((ih hr).append_left _).trans (keepsEntries_of_stretch? ht)

theorem perm_of_run? {patience left : Nat} {holding yielding merged : List α}
    (h : m.run? patience holding yielding = some (merged, left)) :
    merged.Perm (holding ++ yielding) := by
  match yielding, h with
  | [], h =>
    obtain ⟨rfl, _⟩ : holding = merged ∧ patience = left := by simpa [run?] using h
    simp
  | y :: yielding, h =>
    cases hr : m.goOn? (holding.length + yielding.length) (.stepping false 0) patience patience
        holding yielding with
    | none => simp [run?, hr] at h
    | some rest =>
      obtain ⟨rfl, _⟩ : y :: rest.1 = merged ∧ rest.2 = left := by simpa [run?, hr] using h
      exact ((perm_of_goOn? hr).cons y).trans List.perm_middle.symm

end Merge

theorem perm_of_mergeBack? {patience left : Nat} {earlier later merged : List α}
    (h : mergeBack? below? patience earlier later = some (merged, left)) :
    merged.Perm (earlier ++ later) := by
  cases hr : Merge.run? ⟨.back, fun x y => below? y x⟩ patience later.reverse earlier.reverse with
  | none => simp [mergeBack?, hr] at h
  | some rest =>
    obtain ⟨rfl, _⟩ : rest.1.reverse = merged ∧ rest.2 = left := by
      simpa [mergeBack?, hr] using h
    refine (List.reverse_perm _).trans ((Merge.perm_of_run? hr).trans ?_)
    rw [← List.reverse_append]
    exact List.reverse_perm _

theorem perm_of_mergeShorter? {patience left : Nat} {earlier later merged : List α}
    (h : mergeShorter? below? patience earlier later = some (merged, left)) :
    merged.Perm (earlier ++ later) := by
  by_cases hl : earlier.length ≤ later.length
  · exact Merge.perm_of_run? (by simpa [mergeShorter?, mergeFront?, hl] using h)
  · exact perm_of_mergeBack? (by simpa [mergeShorter?, hl] using h)

theorem perm_of_mergeBefore? {patience left : Nat} {earlier later merged : List α}
    (h : mergeBefore? below? patience earlier later = some (merged, left)) :
    merged.Perm (earlier ++ later) := by
  cases hx : earlier.getLast? with
  | none =>
    obtain ⟨rfl, _⟩ : later = merged ∧ patience = left := by simpa [mergeBefore?, hx] using h
    rw [List.getLast?_eq_none_iff.1 hx]
    exact .refl _
  | some x =>
    cases hn : gallop? .back (below?.isNot · x) later.reverse with
    | none => simp [mergeBefore?, hx, hn] at h
    | some count =>
      by_cases hp : later.length - count = 0
      · obtain ⟨rfl, _⟩ : earlier ++ later = merged ∧ patience = left := by
          simpa [mergeBefore?, hx, hn, hp] using h
        exact .refl _
      · cases hr : mergeShorter? below? patience earlier (later.take (later.length - count)) with
        | none => simp [mergeBefore?, hx, hn, hp, hr] at h
        | some rest =>
          obtain ⟨rfl, _⟩ : rest.1 ++ later.drop (later.length - count) = merged ∧
              rest.2 = left := by
            simpa [mergeBefore?, hx, hn, hp, hr] using h
          refine ((perm_of_mergeShorter? hr).append_right _).trans ?_
          rw [List.append_assoc, List.take_append_drop]

theorem perm_of_mergeRuns? {patience left : Nat} {earlier later merged : List α}
    (h : mergeRuns? below? patience earlier later = some (merged, left)) :
    merged.Perm (earlier ++ later) := by
  match later, h with
  | [], h =>
    obtain ⟨rfl, _⟩ : earlier = merged ∧ patience = left := by simpa [mergeRuns?] using h
    simp
  | y :: later, h =>
    cases hn : gallop? .front (below?.isNot y) earlier with
    | none => simp [mergeRuns?, hn] at h
    | some place =>
      cases hr : mergeBefore? below? patience (earlier.drop place) (y :: later) with
      | none => simp [mergeRuns?, hn, hr] at h
      | some rest =>
        obtain ⟨rfl, _⟩ : earlier.take place ++ rest.1 = merged ∧ rest.2 = left := by
          simpa [mergeRuns?, hn, hr] using h
        refine ((perm_of_mergeBefore? hr).append_left _).trans ?_
        rw [← List.append_assoc, List.take_append_drop]

theorem stackEntries_cons (run : WaitingRun α) (stack : List (WaitingRun α)) :
    stackEntries (run :: stack) = stackEntries stack ++ run.entries := by
  simp [stackEntries]

theorem perm_of_collapse? {depth patience left : Nat} {last : WaitingRun α}
    {earlier stack : List (WaitingRun α)}
    (h : collapse? below? depth last earlier patience = some (stack, left)) :
    (stackEntries stack).Perm (stackEntries (last :: earlier)) := by
  induction earlier generalizing last patience left stack with
  | nil =>
    obtain ⟨rfl, _⟩ : [last] = stack ∧ patience = left := by simpa [collapse?] using h
    exact .refl _
  | cons run earlier ih =>
    by_cases hd : depth < last.depth
    · cases hm : mergeRuns? below? patience run.entries last.entries with
      | none => simp [collapse?, hd, hm] at h
      | some merged =>
        have hrest : collapse? below? depth ⟨merged.1, run.depth⟩ earlier merged.2 =
            some (stack, left) := by
          simpa [collapse?, hd, hm] using h
        refine (ih hrest).trans ?_
        simp only [stackEntries_cons, List.append_assoc]
        exact (perm_of_mergeRuns? hm).append_left _
    · obtain ⟨rfl, _⟩ : last :: run :: earlier = stack ∧ patience = left := by
        simpa [collapse?, hd] using h
      exact .refl _

theorem perm_of_push? {count patience left : Nat} {new : List α}
    {earlier stack : List (WaitingRun α)}
    (h : push? below? count new patience earlier = some (stack, left)) :
    (stackEntries stack).Perm (stackEntries earlier ++ new) := by
  match earlier, h with
  | [], h =>
    obtain ⟨rfl, _⟩ : [⟨new, 0⟩] = stack ∧ patience = left := by simpa [push?] using h
    simp [stackEntries]
  | last :: earlier, h =>
    cases hc : collapse? below? (boundaryDepth count
        (stackEntries earlier).length last.entries.length new.length) last earlier
        patience with
    | none => simp [push?, hc] at h
    | some collapsed =>
      obtain ⟨rfl, _⟩ : ⟨new, boundaryDepth count (stackEntries earlier).length
          last.entries.length new.length⟩ :: collapsed.1 = stack ∧ collapsed.2 = left := by
        simpa [push?, hc] using h
      rw [stackEntries_cons]
      exact (perm_of_collapse? hc).append_right _

theorem perm_of_mergeAll? {bound patience : Nat} {stack : List (List α)} {merged : List α}
    (h : mergeAll? below? bound stack patience = some merged) :
    merged.Perm stack.reverse.flatten := by
  induction bound generalizing stack patience with
  | zero =>
    obtain rfl : stack.reverse.flatten = merged := by simpa [mergeAll?] using h
    exact .refl _
  | succ bound ih =>
    match stack, h with
    | [], h =>
      obtain rfl : [] = merged := by simpa [mergeAll?] using h
      exact .refl _
    | [run], h =>
      obtain rfl : run = merged := by simpa [mergeAll?] using h
      simp
    | [third, second], h =>
      cases hm : mergeRuns? below? patience second third with
      | none => simp [mergeAll?, hm] at h
      | some pair =>
        have hrest : mergeAll? below? bound [pair.1] pair.2 = some merged := by
          simpa [mergeAll?, hm] using h
        refine (ih hrest).trans ?_
        simpa using perm_of_mergeRuns? hm
    | third :: second :: first :: earlier, h =>
      by_cases hl : first.length < third.length
      · cases hm : mergeRuns? below? patience first second with
        | none => simp [mergeAll?, hl, hm] at h
        | some pair =>
          have hrest : mergeAll? below? bound (third :: pair.1 :: earlier) pair.2 =
              some merged := by
            simpa [mergeAll?, hl, hm] using h
          refine (ih hrest).trans ?_
          simpa using ((perm_of_mergeRuns? hm).append_right third).append_left _
      · cases hm : mergeRuns? below? patience second third with
        | none => simp [mergeAll?, hl, hm] at h
        | some pair =>
          have hrest : mergeAll? below? bound (pair.1 :: first :: earlier) pair.2 =
              some merged := by
            simpa [mergeAll?, hl, hm] using h
          refine (ih hrest).trans ?_
          simpa using ((perm_of_mergeRuns? hm).append_left first).append_left _

theorem perm_of_sortOn? {count bound patience : Nat} {stack : List (WaitingRun α)}
    {entries ordered : List α}
    (h : sortOn? below? count bound stack patience entries = some ordered) :
    ordered.Perm (stackEntries stack ++ entries) := by
  induction bound generalizing stack patience entries with
  | zero =>
    match entries, h with
    | [], h =>
      rw [List.append_nil]
      exact perm_of_mergeAll? (by simpa [sortOn?] using h)
    | x :: entries, h =>
      obtain rfl : stackEntries stack ++ x :: entries = ordered := by
        simpa [sortOn?] using h
      exact .refl _
  | succ bound ih =>
    match entries, h with
    | [], h =>
      rw [List.append_nil]
      exact perm_of_mergeAll? (by simpa [sortOn?] using h)
    | x :: entries, h =>
      cases he : extendedRun? below? (leastRunLength count) (x :: entries) with
      | none => simp [sortOn?, he] at h
      | some parts =>
        cases hp : push? below? count parts.1 patience stack with
        | none => simp [sortOn?, he, hp] at h
        | some pushed =>
          have hrest : sortOn? below? count bound pushed.1 pushed.2 parts.2 = some ordered := by
            simpa [sortOn?, he, hp] using h
          refine (ih hrest).trans (((perm_of_push? hp).append_right _).trans ?_)
          rw [List.append_assoc]
          exact (perm_of_extendedRun? he).append_left _

/-- Sorting neither loses nor adds an entry. -/
theorem perm_of_sortedBy? {entries ordered : List α}
    (h : sortedBy? below? entries = some ordered) : ordered.Perm entries := by
  simpa [stackEntries] using perm_of_sortOn? h

end Nomenclature.Sorting
