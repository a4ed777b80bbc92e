import Nomenclature.Proofs.DataResolution
import Nomenclature.Proofs.ModuleLoading

/-!
# What a strategy may be called

A name stands for a built-in style, plain or behind one of the customary modules, or it refers to a
member of a module of the host. The first `#` divides a reference, so every name is read in one way
only. A name that stands for nothing is refused, with two exceptions: a module whose name begins
with a dot is relative to nothing, and a module that raises while it is imported fails as it likes.
-/

namespace Nomenclature

namespace CaseStyle

theorem ofName?_eq_some_iff {s : String} {style : CaseStyle} :
    ofName? s = some style ↔ style.name = s := by
  constructor
  · intro h
    simpa using List.find?_some h
  · rintro rfl
    cases style <;> rfl

theorem name_plain (style : CaseStyle) : style.name ≠ "" ∧ '#' ∉ style.name.toList := by
  cases style <;> decide

end CaseStyle

namespace Strategy

variable {host : Host} {name home member : String} {f : Callable}

theorem style_eq_ok_iff {shown : String} :
    style name shown = .ok f ↔ ∃ found : CaseStyle, found.name = name ∧ .style found = f := by
  simp only [← CaseStyle.ofName?_eq_some_iff]
  rw [style]
  cases CaseStyle.ofName? name <;> simp

/-- A name that no style has is unknown, as it is shown. -/
theorem style_of_forall_ne {shown : String} (h : ∀ style : CaseStyle, style.name ≠ name) :
    style name shown = .error (.config (.unknownStrategy shown)) := by
  have hnone : CaseStyle.ofName? name = none := by
    rw [Option.eq_none_iff_forall_ne_some]
    exact fun found hfound => h found (CaseStyle.ofName?_eq_some_iff.1 hfound)
  rw [style, hnone]

theorem styleModules_plain : ∀ home ∈ styleModules, home ≠ "" ∧ '#' ∉ home.toList := by
  decide

/-! ## Reading a name -/

/-- A name is no reference, or the first `#` divides it into a module and a member. -/
theorem exists_reference (name : String) :
    '#' ∉ name.toList ∨ ∃ home member, '#' ∉ home.toList ∧ name = home ++ "#" ++ member := by
  by_cases h : '#' ∈ name.toList
  · obtain ⟨front, rest, hname, hfront⟩ := List.eq_append_cons_of_mem h
    refine .inr ⟨String.ofList front, String.ofList rest, by simpa using hfront, ?_⟩
    rw [← String.toList_inj, hname]
    simp
  · exact .inl h

/-- Of a reference, the parts before and after the first `#` count. -/
theorem resolveName_reference (hhome : '#' ∉ home.toList) (member : String) :
    resolveName host (home ++ "#" ++ member) =
      if home = "" ∨ member = "" then
        .error (.config (.malformedReference (home ++ "#" ++ member)))
      else if home ∈ styleModules then style member (home ++ "#" ++ member)
      else host.function home member := by
  have hchars : (home ++ "#" ++ member).toList = home.toList ++ '#' :: member.toList := by
    simp
  have hpass : ∀ c ∈ home.toList, (c != '#') = true := by
    intro c hc
    rw [bne_iff_ne]
    rintro rfl
    exact hhome hc
  have hspan : (home ++ "#" ++ member).toList.span (· != '#') =
      (home.toList, '#' :: member.toList) := by
    rw [hchars, List.span_eq_takeWhile_dropWhile, List.takeWhile_append_of_pos hpass,
      List.dropWhile_append_of_pos hpass]
    simp
  rw [resolveName, hspan]
  simp only [String.ofList_toList, Bool.or_eq_true, List.isEmpty_iff, String.toList_eq_nil_iff]

/-- A text that is not empty is a strategy by its name. -/
theorem resolveValue_text (hname : name ≠ "") :
    resolveValue host (.text name) = (resolveName host name).map fun f => (named name, f) := by
  have hvalue : ofValue (.text name) = .ok (.named name) := by
    rw [ofValue, if_neg (by simpa using hname)]
  rw [resolveValue, hvalue]
  change (resolveName host name >>= fun f => .ok (named name, f)) = _
  cases resolveName host name <;> rfl

/-! ## What a name stands for -/

/-- The name of a module that only the host can provide. -/
structure IsForeign (home : String) : Prop where
  named : home ≠ ""
  undivided : '#' ∉ home.toList
  foreign : home ∉ styleModules

/-- What a name stands for as a strategy. -/
inductive Designates (host : Host) : String → Callable → Prop
  | style (style : CaseStyle) : Designates host style.name (.style style)
  | qualified {home : String} (hhome : home ∈ styleModules) (style : CaseStyle) :
      Designates host (home ++ "#" ++ style.name) (.style style)
  | member {home member : String} {members : List (String × Value)} {f : Callable}
      (hhome : IsForeign home) (habsolute : ¬ Host.IsRelative home) (hmember : member ≠ "")
      (himportable : host.Importable home members)
      (hfound : members.lookup member = some (.callable f)) :
      Designates host (home ++ "#" ++ member) f

/-- Names that fail otherwise than by a refusal, and with what. -/
inductive Escapes (host : Host) : String → Fault → Prop
  | relative {home member : String} (hhome : IsForeign home) (hrelative : Host.IsRelative home)
      (hmember : member ≠ "") : Escapes host (home ++ "#" ++ member) .relativeModule
  | raised {home member kind : String} (hhome : IsForeign home)
      (habsolute : ¬ Host.IsRelative home) (hmember : member ≠ "")
      (hraises : host.Raises home kind) : Escapes host (home ++ "#" ++ member) (.host kind)

theorem function_eq_ok_iff :
    host.function home member = .ok f ↔
      ∃ members, host.load home = .ok members ∧ members.lookup member = some (.callable f) := by
  rw [Host.function, bind_eq_ok_iff]
  refine exists_congr fun members => and_congr_right fun _ => ?_
  cases members.lookup member with
  | none => simp
  | some value => cases value <;> simp

/-- Beyond a refusal, a member of a module fails as the module does. -/
theorem function_eq_error_iff {fault : Fault} (hfault : ∀ cause, fault ≠ .config cause) :
    host.function home member = .error fault ↔ host.load home = .error fault := by
  rw [Host.function]
  cases host.load home with
  | error found => simp [Bind.bind, Except.bind]
  | ok members =>
      refine iff_of_false ?_ nofun
      simp only [Bind.bind, Except.bind]
      split
      all_goals simp [(hfault _).symm]

/-- The reference to a member of a module that only the host can provide. -/
theorem resolveName_of_isForeign (hhome : IsForeign home) (hmember : member ≠ "") :
    resolveName host (home ++ "#" ++ member) = host.function home member := by
  rw [resolveName_reference hhome.undivided, if_neg (not_or.2 ⟨hhome.named, hmember⟩),
    if_neg hhome.foreign]

theorem resolveName_of_designates (h : Designates host name f) : resolveName host name = .ok f := by
  cases h with
  | style style =>
      rw [resolveName_of_not_mem style.name_plain.2]
      exact style_eq_ok_iff.2 ⟨style, rfl, rfl⟩
  | qualified hhome style =>
      obtain ⟨hnamed, hplain⟩ := styleModules_plain _ hhome
      rw [resolveName_reference hplain, if_neg (not_or.2 ⟨hnamed, style.name_plain.1⟩),
        if_pos hhome]
      exact style_eq_ok_iff.2 ⟨style, rfl, rfl⟩
  | member hhome habsolute hmember himportable hfound =>
      rw [resolveName_of_isForeign hhome hmember]
      have hload := host.load_loadsTo hhome.named habsolute
      exact function_eq_ok_iff.2 ⟨_, (hload.eq_ok_iff _).2 himportable, hfound⟩

theorem designates_of_resolveName (h : resolveName host name = .ok f) : Designates host name f := by
  rcases exists_reference name with hplain | ⟨home, member, hhome, rfl⟩
  · rw [resolveName_of_not_mem hplain] at h
    obtain ⟨found, rfl, rfl⟩ := style_eq_ok_iff.1 h
    exact .style found
  · rw [resolveName_reference hhome] at h
    split at h
    · cases h
    · rename_i hparts
      obtain ⟨hnamed, hmember⟩ := not_or.1 hparts
      split at h
      · rename_i hmodule
        obtain ⟨found, rfl, rfl⟩ := style_eq_ok_iff.1 h
        exact .qualified hmodule found
      · rename_i hforeign
        obtain ⟨members, hload, hfound⟩ := function_eq_ok_iff.1 h
        have habsolute : ¬ Host.IsRelative home := by
          intro hrelative
          rw [Host.load_of_isRelative hrelative] at hload
          cases hload
        have hloads := host.load_loadsTo hnamed habsolute
        exact .member ⟨hnamed, hhome, hforeign⟩ habsolute hmember
          ((hloads.eq_ok_iff members).1 hload) hfound

theorem resolveName_of_escapes {fault : Fault} (h : Escapes host name fault) :
    resolveName host name = .error fault := by
  cases h with
  | relative hhome hrelative hmember =>
      rw [resolveName_of_isForeign hhome hmember, function_eq_error_iff (by simp)]
      exact Host.load_of_isRelative hrelative
  | raised hhome habsolute hmember hraises =>
      rw [resolveName_of_isForeign hhome hmember, function_eq_error_iff (by simp)]
      exact ((host.load_loadsTo hhome.named habsolute).eq_host_iff _).2 hraises

theorem escapes_of_resolveName {fault : Fault} (hfault : ∀ cause, fault ≠ .config cause)
    (h : resolveName host name = .error fault) : Escapes host name fault := by
  have hstyle {name shown : String} : style name shown ≠ .error fault := by
    intro hstyle
    obtain ⟨cause, hcause⟩ := onlyRefuses_style name shown fault hstyle
    exact hfault cause hcause
  rcases exists_reference name with hplain | ⟨home, member, hhome, rfl⟩
  · rw [resolveName_of_not_mem hplain] at h
    exact absurd h hstyle
  · rw [resolveName_reference hhome] at h
    split at h
    · exact absurd (Except.error.inj h).symm (hfault _)
    · rename_i hparts
      obtain ⟨hnamed, hmember⟩ := not_or.1 hparts
      split at h
      · exact absurd h hstyle
      · rename_i hforeign
        rw [function_eq_error_iff hfault] at h
        by_cases hrelative : Host.IsRelative home
        · obtain rfl := Except.error.inj (h.symm.trans (Host.load_of_isRelative hrelative))
          exact .relative ⟨hnamed, hhome, hforeign⟩ hrelative hmember
        · have hloads := host.load_loadsTo hnamed hrelative
          rcases hloads.fault_cases h with ⟨cause, rfl⟩ | ⟨kind, rfl⟩
          · exact absurd rfl (hfault cause)
          · exact .raised ⟨hnamed, hhome, hforeign⟩ hrelative hmember
              ((hloads.eq_host_iff kind).1 h)

/-- A text is resolved exactly if it designates a function, and to that function. If it is not, it
is refused, unless it escapes; then it fails as it escapes. -/
theorem resolveValue_text_iff (host : Host) (name : String) :
    (∀ f, (resolveValue host (.text name)).map (·.2) = .ok f ↔ Designates host name f) ∧
      ∀ fault, (∀ cause, fault ≠ .config cause) →
        (resolveValue host (.text name) = .error fault ↔ Escapes host name fault) := by
  have hok (f : Callable) : resolveName host name = .ok f ↔ Designates host name f :=
    ⟨designates_of_resolveName, resolveName_of_designates⟩
  have herror (fault : Fault) (hfault : ∀ cause, fault ≠ .config cause) :
      resolveName host name = .error fault ↔ Escapes host name fault :=
    ⟨escapes_of_resolveName hfault, resolveName_of_escapes⟩
  by_cases hname : name = ""
  · -- The empty text is refused before it is read as a name, which would refuse it as well.
    subst hname
    have hread : resolveName host "" = .error (.config (.unknownStrategy "")) := rfl
    have hvalue : resolveValue host (.text "") = .error (.config (.invalidConvention (.text ""))) :=
      rfl
    rw [hvalue]
    refine ⟨fun f => ?_, fun fault hfault => ?_⟩
    · rw [← hok, hread]
      exact iff_of_false nofun nofun
    · rw [← herror fault hfault, hread]
      simp [(hfault _).symm]
  · rw [resolveValue_text hname]
    refine ⟨fun f => ?_, fun fault hfault => ?_⟩
    · rw [← hok]
      cases resolveName host name <;> simp [Except.map]
    · rw [← herror fault hfault]
      cases resolveName host name <;> simp [Except.map]

def shout : HostFunction :=
  ⟨"kit.case", "shout", "kit.case#shout", "<function shout>", "function"⟩

/-- A host with a module in a package, and with a package that raises when it is imported. -/
def kitHost : Host :=
  ⟨[("kit", .loaded true []), ("kit.case", .loaded false [("shout", .callable (.host shout))]),
      ("broken", .raising "ValueError"),
      ("broken.case", .loaded false [("shout", .callable (.host shout))])],
    fun _ s => .ok (.text (CaseStyle.upper.write s))⟩

/-- A package leads to a function; another one raises before it leads anywhere. -/
theorem resolveValue_text_iff_kit :
    (resolveValue kitHost (.text "kit.case#shout")).map (·.2) = .ok (.host shout) ∧
      Designates kitHost "kit.case#shout" (.host shout) ∧
      (∀ cause, Fault.host "ValueError" ≠ .config cause) ∧
      resolveValue kitHost (.text "broken.case#shout") = .error (.host "ValueError") ∧
      Escapes kitHost "broken.case#shout" (.host "ValueError") := by
  have hkit : (resolveValue kitHost (.text "kit.case#shout")).map (·.2) = .ok (.host shout) := by
    rfl
  have hbroken : resolveValue kitHost (.text "broken.case#shout") =
      .error (.host "ValueError") := by
    rfl
  have hfault : ∀ cause, Fault.host "ValueError" ≠ .config cause := by simp
  refine ⟨hkit, ?_, hfault, hbroken, ?_⟩
  · exact ((resolveValue_text_iff kitHost "kit.case#shout").1 _).1 hkit
  · exact ((resolveValue_text_iff kitHost "broken.case#shout").2 _ hfault).1 hbroken

/-- A name may be neither resolved nor refused: its module is relative to nothing, or it raises. -/
theorem exists_neither_resolved_nor_refused :
    (∀ found, resolveValue kitHost (.text ".kit#shout") ≠ .ok found) ∧
      (∀ cause, resolveValue kitHost (.text ".kit#shout") ≠ .error (.config cause)) ∧
      (∀ found, resolveValue kitHost (.text "broken#shout") ≠ .ok found) ∧
      ∀ cause, resolveValue kitHost (.text "broken#shout") ≠ .error (.config cause) := by
  have hrelative : resolveValue kitHost (.text ".kit#shout") = .error .relativeModule := by
    rfl
  have hraising : resolveValue kitHost (.text "broken#shout") = .error (.host "ValueError") := by
    rfl
  simp [hrelative, hraising]

end Strategy

end Nomenclature
