import Nomenclature.Host
import Nomenclature.Proofs.Separators

/-!
# Loading modules

A dotted name leads through packages: every module that stands before one of its dots. Loading stops
at the first module on the way that is no package, or at the end. What is there decides: members,
a refusal, or whatever the module itself raises. Since there is one such place only, conditions on
the host tell these three apart.
-/

namespace Nomenclature

/-- No piece between separators holds one. -/
theorem not_mem_of_mem_splitOn {α : Type} [DecidableEq α] {s : α} {cs piece : List α}
    (h : piece ∈ cs.splitOn s) : s ∉ piece := by
  by_cases hs : s ∈ cs
  · obtain ⟨front, rest, hcs, hfront⟩ := List.eq_append_cons_of_mem hs
    have hshorter : rest.length < cs.length := by simp [hcs, Nat.lt_add_left]
    rw [hcs, List.splitOn_append_cons_self, List.splitOn_eq_singleton hfront] at h
    rcases List.mem_cons.1 h with rfl | h
    · exact hfront
    · exact not_mem_of_mem_splitOn h
  · rw [List.splitOn_eq_singleton hs, List.mem_singleton] at h
    rwa [h]
termination_by cs.length

namespace Host

variable {host : Host} {parent target name other : String}

/-! ## The way to a module -/

/-- One module stands before another: its name is what comes before a dot of the other's name. -/
def Before (package name : String) : Prop :=
  ∃ rest, name.toList = package.toList ++ '.' :: rest

/-- The modules on the way to another one: those that stand before it, and at last itself. -/
def OnWay (name target : String) : Prop :=
  name = target ∨ Before name target

/-- A module that is loaded as a package may hold others. -/
def IsPackage (host : Host) (name : String) : Prop :=
  ∃ members, host.loading name = .loaded true members

/-- All modules that stand before one are packages. -/
def IsOpen (host : Host) (name : String) : Prop :=
  ∀ package, Before package name → host.IsPackage package

theorem not_isPackage_of_loading {found : Loading} (h : host.loading name = found)
    (hfound : ∀ members, found ≠ .loaded true members) : ¬ host.IsPackage name := by
  rintro ⟨members, hpackage⟩
  exact hfound members (h.symm.trans hpackage)

/-- Of two modules on one way, one stands before the other. -/
theorem OnWay.trichotomy (h : OnWay name target) (h' : OnWay other target) :
    name = other ∨ Before name other ∨ Before other name := by
  rcases h with rfl | ⟨rest, hrest⟩
  · exact h'.imp Eq.symm .inr
  rcases h' with rfl | ⟨rest', hrest'⟩
  · exact .inr (.inl ⟨rest, hrest⟩)
  rcases List.append_eq_append_iff.1 (hrest.symm.trans hrest') with
    ⟨front, hother, hfront⟩ | ⟨front, hname, hfront⟩
  · cases front with
    | nil => exact .inl (String.toList_inj.1 (by simpa using hother.symm))
    | cons c front =>
        obtain ⟨rfl, -⟩ := List.cons.inj hfront
        exact .inr (.inl ⟨front, hother⟩)
  · cases front with
    | nil => exact .inl (String.toList_inj.1 (by simpa using hname))
    | cons c front =>
        obtain ⟨rfl, -⟩ := List.cons.inj hfront
        exact .inr (.inr ⟨front, hname⟩)

/-- On the way to a module there is one at most to which packages lead and which is none. -/
theorem OnWay.eq_of_isOpen (h : OnWay name target) (h' : OnWay other target)
    (hname : host.IsOpen name) (hother : host.IsOpen other) (hend : ¬ host.IsPackage name)
    (hend' : ¬ host.IsPackage other) : name = other := by
  rcases h.trichotomy h' with heq | hbefore | hbefore
  · exact heq
  · exact absurd (hother name hbefore) hend
  · exact absurd (hname other hbefore) hend'

/-! ## What loading comes to -/

/-- What loading a module comes to. -/
inductive LoadsTo (host : Host) (target : String) :
    Except Fault (List (String × Value)) → Prop
  | found {isPackage : Bool} {members : List (String × Value)} (hopen : host.IsOpen target)
      (hloaded : host.loading target = .loaded isPackage members) :
      LoadsTo host target (.ok members)
  | refused {name : String} (hway : OnWay name target) (hopen : host.IsOpen name)
      (hend : ¬ host.IsPackage name) (hquiet : ∀ kind, host.loading name ≠ .raising kind)
      (habsent : name = target → ∀ isPackage members,
        host.loading name ≠ .loaded isPackage members)
      (reason : String) : LoadsTo host target (.error (.config (.unloadableModule target reason)))
  | raised {name kind : String} (hway : OnWay name target) (hopen : host.IsOpen name)
      (hraising : host.loading name = .raising kind) : LoadsTo host target (.error (.host kind))

/-- A module that is not there, or that cannot be loaded, is refused. -/
theorem LoadsTo.of_unloaded {found : Loading} (hway : OnWay name target)
    (hopen : host.IsOpen name) (h : host.loading name = found)
    (hraising : ∀ kind, found ≠ .raising kind)
    (hloaded : ∀ isPackage members, found ≠ .loaded isPackage members) (reason : String) :
    LoadsTo host target (.error (.config (.unloadableModule target reason))) := by
  subst h
  exact .refused hway hopen (not_isPackage_of_loading rfl (hloaded true)) hraising
    (fun _ => hloaded) reason

/-- The module that a dotted name leads to from another one. -/
def within (parent : String) (parts : List (List Char)) : String :=
  String.ofList (['.'].intercalate (parent.toList :: parts))

theorem within_nil (parent : String) : within parent [] = parent := by
  rw [within, List.intercalate_singleton, String.ofList_toList]

theorem within_cons (parent : String) (part : List Char) (rest : List (List Char)) :
    within parent (part :: rest) = within (parent ++ "." ++ String.ofList part) rest := by
  rw [within, within]
  cases rest <;> simp [List.intercalate_cons_cons]

theorem before_within (parent : String) (part : List Char) (rest : List (List Char)) :
    Before parent (within parent (part :: rest)) := by
  refine ⟨['.'].intercalate (part :: rest), ?_⟩
  rw [within, List.intercalate_cons_cons, String.toList_ofList, List.append_assoc,
    List.singleton_append]

theorem onWay_within (parent : String) (parts : List (List Char)) :
    OnWay parent (within parent parts) := by
  cases parts with
  | nil => exact .inl (within_nil parent).symm
  | cons part rest => exact .inr (before_within parent part rest)

/-- Packages lead to a module of a package to which packages lead. -/
theorem IsOpen.concat {part : List Char} (hopen : host.IsOpen parent)
    (hparent : host.IsPackage parent) (hpart : '.' ∉ part) :
    host.IsOpen (parent ++ "." ++ String.ofList part) := by
  rintro package ⟨rest, hrest⟩
  have hparent' : OnWay parent (parent ++ "." ++ String.ofList part) :=
    .inr ⟨part, by simp⟩
  rcases OnWay.trichotomy (.inr ⟨rest, hrest⟩) hparent' with rfl | hbefore | ⟨more, hmore⟩
  · exact hparent
  · exact hopen package hbefore
  · -- The package would have a dot in the last part of the name.
    rw [hmore] at hrest
    have hsame : part = more ++ '.' :: rest := by simpa using hrest
    exact absurd (by simp [hsame]) hpart

/-- Loading what is within a loaded module. -/
theorem loadWithin_loadsTo {isPackage : Bool} {members : List (String × Value)}
    {parts : List (List Char)} (hparent : host.loading parent = .loaded isPackage members)
    (hopen : host.IsOpen parent) (hparts : ∀ part ∈ parts, '.' ∉ part) :
    host.LoadsTo (within parent parts)
      (host.loadWithin (within parent parts) parent isPackage members parts) := by
  induction parts generalizing parent isPackage members with
  | nil =>
      rw [within_nil]
      exact .found hopen hparent
  | cons part rest ih =>
      obtain ⟨hpart, hrest⟩ := List.forall_mem_cons.1 hparts
      have hbefore := before_within parent part rest
      cases isPackage with
      | false =>
          refine .refused (.inr hbefore) hopen ?_ ?_ ?_ _
          · exact not_isPackage_of_loading hparent (by simp)
          · simp [hparent]
          · rintro heq
            obtain ⟨more, hmore⟩ := hbefore
            rw [← heq] at hmore
            simp at hmore
      | true =>
          rw [within_cons, loadWithin, if_pos rfl]
          have hname := hopen.concat ⟨members, hparent⟩ hpart
          have hway := onWay_within (parent ++ "." ++ String.ofList part) rest
          cases hloading : host.loading (parent ++ "." ++ String.ofList part) with
          | missing => exact .of_unloaded hway hname hloading nofun nofun _
          | failing reason => exact .of_unloaded hway hname hloading nofun nofun _
          | raising kind => exact .raised hway hname hloading
          | loaded isPackage' members' => exact ih hloading hname hrest

/-- A name with a dot in front is meant relative to a package. -/
def IsRelative (name : String) : Prop :=
  ∃ rest, name.toList = '.' :: rest

theorem load_of_isRelative (h : IsRelative target) : host.load target = .error .relativeModule := by
  obtain ⟨rest, hrest⟩ := h
  have hsplit : target.toList.splitOn '.' = [] :: rest.splitOn '.' := by
    rw [hrest, ← List.nil_append ('.' :: rest), List.splitOn_append_cons_self, List.splitOn_nil]
    rfl
  rw [load, hsplit]

theorem isOpen_of_not_mem (h : '.' ∉ name.toList) : host.IsOpen name := by
  rintro package ⟨rest, hrest⟩
  exact absurd (by simp [hrest]) h

/-- Loading comes to what stands at the end of the way or where the way ends early. -/
theorem load_loadsTo (host : Host) (hempty : target ≠ "") (hrelative : ¬ IsRelative target) :
    host.LoadsTo target (host.load target) := by
  obtain ⟨first, rest, hsplit⟩ := List.exists_cons_of_ne_nil (List.splitOn_ne_nil '.' target.toList)
  have hparts : ∀ part ∈ first :: rest, '.' ∉ part :=
    hsplit ▸ fun part => not_mem_of_mem_splitOn
  obtain ⟨hfirst, hrest⟩ := List.forall_mem_cons.1 hparts
  have htarget : within (String.ofList first) rest = target := by
    rw [within, String.toList_ofList, ← hsplit, List.intercalate_splitOn, String.ofList_toList]
  cases first with
  | nil =>
      -- With nothing in front of the first dot the name would be relative, or there is no dot.
      rw [← htarget] at hempty hrelative
      cases rest with
      | nil => exact absurd rfl hempty
      | cons part rest =>
          exact absurd (before_within _ part rest) hrelative
  | cons c cs =>
      have hopen : host.IsOpen (String.ofList (c :: cs)) :=
        isOpen_of_not_mem (by rwa [String.toList_ofList])
      have hway : OnWay (String.ofList (c :: cs)) target :=
        htarget ▸ onWay_within _ rest
      rw [load, hsplit]
      cases hloading : host.loading (String.ofList (c :: cs)) with
      | missing =>
          simp only [hloading]
          exact .of_unloaded hway hopen hloading nofun nofun _
      | failing reason =>
          simp only [hloading]
          exact .of_unloaded hway hopen hloading nofun nofun _
      | raising kind =>
          simp only [hloading]
          exact .raised hway hopen hloading
      | loaded isPackage members =>
          simp only [hloading]
          have hwithin := loadWithin_loadsTo hloading hopen hrest
          rwa [htarget] at hwithin

/-! ## Conditions on the host -/

/-- A module can be imported: packages lead to it, and it is loaded. -/
def Importable (host : Host) (target : String) (members : List (String × Value)) : Prop :=
  host.IsOpen target ∧ ∃ isPackage, host.loading target = .loaded isPackage members

/-- Importing a module raises: packages lead to a module on the way that raises. -/
def Raises (host : Host) (target kind : String) : Prop :=
  ∃ name, OnWay name target ∧ host.IsOpen name ∧ host.loading name = .raising kind

theorem not_importable_of_onWay (hway : OnWay name target) (hend : ¬ host.IsPackage name)
    (habsent : name = target → ∀ isPackage members,
      host.loading name ≠ .loaded isPackage members) (members : List (String × Value)) :
    ¬ host.Importable target members := by
  rintro ⟨hopen, isPackage, hloaded⟩
  rcases hway with rfl | hbefore
  · exact habsent rfl isPackage members hloaded
  · exact hend (hopen name hbefore)

theorem LoadsTo.eq_ok_iff {result : Except Fault (List (String × Value))}
    (h : host.LoadsTo target result) (members : List (String × Value)) :
    result = .ok members ↔ host.Importable target members := by
  cases h with
  | @found isPackage members' hopen hloaded =>
      constructor
      · intro heq
        obtain rfl := Except.ok.inj heq
        exact ⟨hopen, isPackage, hloaded⟩
      · rintro ⟨-, isPackage', hloaded'⟩
        rw [(Loading.loaded.inj (hloaded.symm.trans hloaded')).2]
  | refused hway hopen hend hquiet habsent reason =>
      exact iff_of_false nofun (not_importable_of_onWay hway hend habsent members)
  | @raised name kind hway hopen hraising =>
      have hend := not_isPackage_of_loading hraising (by simp)
      refine iff_of_false nofun (not_importable_of_onWay hway hend ?_ members)
      simp [hraising]

theorem LoadsTo.eq_host_iff {result : Except Fault (List (String × Value))}
    (h : host.LoadsTo target result) (kind : String) :
    result = .error (.host kind) ↔ host.Raises target kind := by
  cases h with
  | @found isPackage members hopen hloaded =>
      refine iff_of_false nofun ?_
      rintro ⟨name, hway, -, hraising⟩
      have hend := not_isPackage_of_loading hraising (by simp)
      exact not_importable_of_onWay hway hend (by simp [hraising]) members
        ⟨hopen, isPackage, hloaded⟩
  | @refused name hway hopen hend hquiet habsent reason =>
      refine iff_of_false nofun ?_
      rintro ⟨other, hway', hopen', hraising⟩
      have hend' := not_isPackage_of_loading hraising (by simp)
      obtain rfl := hway.eq_of_isOpen hway' hopen hopen' hend hend'
      exact hquiet kind hraising
  | @raised name kind' hway hopen hraising =>
      constructor
      · intro heq
        obtain rfl := Fault.host.inj (Except.error.inj heq)
        exact ⟨name, hway, hopen, hraising⟩
      · rintro ⟨other, hway', hopen', hraising'⟩
        have hend := not_isPackage_of_loading hraising (by simp)
        have hend' := not_isPackage_of_loading hraising' (by simp)
        obtain rfl := hway.eq_of_isOpen hway' hopen hopen' hend hend'
        rw [Loading.raising.inj (hraising.symm.trans hraising')]

/-- What is not found is refused or raises. -/
theorem LoadsTo.fault_cases {result : Except Fault (List (String × Value))}
    (h : host.LoadsTo target result) {fault : Fault} (hfault : result = .error fault) :
    (∃ cause, fault = .config cause) ∨ ∃ kind, fault = .host kind := by
  cases h with
  | found => cases hfault
  | refused _ _ _ _ _ reason => exact .inl ⟨_, (Except.error.inj hfault).symm⟩
  | raised => exact .inr ⟨_, (Except.error.inj hfault).symm⟩

end Host

end Nomenclature
