import Mathlib.Logic.Relation
import Nomenclature.Proofs.Equivalence
import Nomenclature.Proofs.ShownText
import Nomenclature.Proofs.ValueDocument
import Nomenclature.Value.Key

/-!
# Freezing

A frozen value holds nothing that can change: lists became tuples, mappings and sets read-only
ones. Freezing puts every set together anew, and a set may then list its items in another order. So
a value has many frozen forms. All of them are fixed under freezing, are the same as each other, and
have the canonical text of the value itself: the items of a set are written in the order of the
texts that show them, which does not depend on the order in which they are listed.
-/

namespace Nomenclature

section

variable {α β : Type _} {R : α → β → Prop} {xs : List α} {ys : List β}

/-- Lists that are related in order, but for a rearrangement of the second. -/
theorem covers_of_forall₂ {R : α → α → Prop} {moved ys : List α} (h : List.Forall₂ R xs moved)
    (hperm : moved.Perm ys) : Covers R xs ys := by
  constructor
  · simpa only [hperm.mem_iff] using exists_of_forall₂ h
  · simpa only [hperm.mem_iff] using exists_of_forall₂ h.flip

end

namespace Value

/-! ## Frozen forms -/

/-- A list, a tuple, a set or a mapping. -/
def isContainer : Value → Bool
  | list _ | tuple _ | set .. | mapping .. => true
  | _ => false

/-- The frozen forms of a value. A set that is put together anew may list its items in any order;
keys stay as they are, and so does what is no container. -/
inductive FreezesTo : Value → Value → Prop
  | plain {v : Value} (hv : v.isContainer = false) : FreezesTo v v
  | list {items others : List Value} (hitems : List.Forall₂ FreezesTo items others) :
      FreezesTo (.list items) (.tuple others)
  | tuple {items others : List Value} (hitems : List.Forall₂ FreezesTo items others) :
      FreezesTo (.tuple items) (.tuple others)
  | set {frozen : Bool} {items moved others : List Value}
      (hitems : List.Forall₂ FreezesTo items moved) (hperm : moved.Perm others) :
      FreezesTo (.set frozen items) (.set true others)
  | mapping {frozen : Bool} {entries others : Entries}
      (hkeys : entries.map (·.1) = others.map (·.1))
      (hvalues : List.Forall₂ FreezesTo (entries.map (·.2)) (others.map (·.2))) :
      FreezesTo (.mapping frozen entries) (.mapping true others)

/-- Entries of the same keys, with their values matched in order. -/
theorem forall₂_entries {R : Value → Value → Prop} {entries others : Entries}
    (hkeys : entries.map (·.1) = others.map (·.1))
    (hvalues : List.Forall₂ R (entries.map (·.2)) (others.map (·.2))) :
    List.Forall₂ (fun entry other => entry.1 = other.1 ∧ R entry.2 other.2) entries others := by
  induction entries generalizing others with
  | nil =>
      obtain rfl := List.map_eq_nil_iff.1 hkeys.symm
      exact .nil
  | cons entry entries ih =>
      cases others with
      | nil => cases hkeys
      | cons other others =>
          obtain ⟨hkey, hkeys⟩ := List.cons.inj hkeys
          obtain ⟨hvalue, hvalues⟩ := List.forall₂_cons.1 hvalues
          exact .cons ⟨hkey, hvalue⟩ (ih hkeys hvalues)

/-- What holds of a frozen form if it holds of the frozen forms of what the value holds. -/
theorem FreezesTo.induction {P : Value → Value → Prop}
    (plain : ∀ v, v.isContainer = false → P v v)
    (list : ∀ items others, List.Forall₂ P items others → P (.list items) (.tuple others))
    (tuple : ∀ items others, List.Forall₂ P items others → P (.tuple items) (.tuple others))
    (set : ∀ frozen items moved others, List.Forall₂ P items moved → moved.Perm others →
      P (.set frozen items) (.set true others))
    (mapping : ∀ frozen entries others,
      List.Forall₂ (fun entry other => entry.1 = other.1 ∧ P entry.2 other.2) entries others →
        P (.mapping frozen entries) (.mapping true others))
    {v w : Value} (h : v.FreezesTo w) : P v w := by
  induction v using Value.induction generalizing w with
  | step v ih =>
  have hparts {parts others : List Value} (hheld : ∀ part ∈ parts, part ∈ v.held)
      (h : List.Forall₂ FreezesTo parts others) : List.Forall₂ P parts others := by
    induction h with
    | nil => exact .nil
    | cons hfirst _ ih' =>
        obtain ⟨hpart, hrest⟩ := List.forall_mem_cons.1 hheld
        exact .cons (ih _ hpart hfirst) (ih' hrest)
  cases h with
  | plain hv => exact plain v hv
  | list h => exact list _ _ (hparts (fun _ h => h) h)
  | tuple h => exact tuple _ _ (hparts (fun _ h => h) h)
  | set h hperm => exact set _ _ _ _ (hparts (fun _ h => h) h) hperm
  | mapping hkeys hvalues =>
      refine mapping _ _ _ (forall₂_entries hkeys (hparts (fun part hpart => ?_) hvalues))
      exact List.mem_append_right _ hpart

/-- Freezing yields a frozen form. -/
theorem freezesTo_freeze (v : Value) : v.FreezesTo v.freeze := by
  induction v using Value.induction with
  | step v ih =>
  have hitems (items : List Value) (h : ∀ item ∈ items, item.FreezesTo item.freeze) :
      List.Forall₂ FreezesTo items (freezeItems items) := by
    rw [freezeItems_eq_map, List.forall₂_map_right_iff]
    exact List.forall₂_same.2 h
  cases v with
  | list items => exact .list (hitems items ih)
  | tuple items => exact .tuple (hitems items ih)
  | set frozen items => exact .set (hitems items ih) (.refl _)
  | mapping frozen entries =>
      rw [freeze, freezeEntries_eq_map]
      refine .mapping (by simp) ?_
      rw [List.map_map, List.forall₂_map_left_iff, List.forall₂_map_right_iff]
      refine List.forall₂_same.2 fun entry hentry => ih entry.2 ?_
      exact List.mem_append_right _ (List.mem_map_of_mem hentry)
  | _ => exact .plain rfl

/-- The documents of all frozen forms of a value are shown as its own is. -/
theorem FreezesTo.shown_document {v w : Value} (h : v.FreezesTo w) :
    v.document.shown = w.document.shown := by
  have hitems {items others : List Value}
      (h : List.Forall₂ (fun v w => v.document.shown = w.document.shown) items others) :
      (documentItems items).map Document.shown = (documentItems others).map Document.shown := by
    rw [documentItems_eq_map, documentItems_eq_map, List.map_map, List.map_map]
    exact Document.map_eq_of_forall₂ h fun _ _ _ _ h => h
  refine FreezesTo.induction (P := fun v w => v.document.shown = w.document.shown)
    (fun _ _ => rfl) (fun items others h => ?_) (fun items others h => ?_)
    (fun frozen items moved others h hperm => ?_) (fun frozen entries others h => ?_) h
  · exact Document.shown_array_congr (hitems h)
  · exact Document.shown_array_congr (hitems h)
  · apply Document.shown_sortedBy_congr
    rw [hitems h, documentItems_eq_map, documentItems_eq_map]
    exact (hperm.map _).map _
  · apply Document.ShownAlike.shown_ofMembers
    rw [documentEntries_eq_map, documentEntries_eq_map, Document.ShownAlike,
      List.forall₂_map_left_iff, List.forall₂_map_right_iff]
    exact h.imp fun entry other h => ⟨congrArg displayed h.1, h.2⟩

theorem freezeItems_eq_self {items : List Value} (h : ∀ item ∈ items, item.freeze = item) :
    freezeItems items = items := by
  rw [freezeItems_eq_map]
  exact (List.map_congr_left h).trans (List.map_id items)

/-- Freezing leaves a frozen form as it is. -/
theorem FreezesTo.freeze_eq {v w : Value} (h : v.FreezesTo w) : w.freeze = w := by
  have hitems {items others : List Value}
      (h : List.Forall₂ (fun _ w : Value => w.freeze = w) items others) :
      ∀ other ∈ others, other.freeze = other :=
    forall_of_forall₂ h fun _ _ h => h
  refine FreezesTo.induction (P := fun _ w => w.freeze = w) (fun v hv => ?_)
    (fun items others h => ?_) (fun items others h => ?_)
    (fun frozen items moved others h hperm => ?_) (fun frozen entries others h => ?_) h
  · cases v <;> first | rfl | cases hv
  · rw [freeze, freezeItems_eq_self (hitems h)]
  · rw [freeze, freezeItems_eq_self (hitems h)]
  · rw [freeze, freezeItems_eq_self]
    simpa only [hperm.mem_iff] using hitems h
  · have hvalues : ∀ other ∈ others, other.2.freeze = other.2 :=
      forall_of_forall₂ h fun _ _ h => h.2
    rw [freeze, freezeEntries_eq_map, List.map_congr_left (g := id), List.map_id]
    exact fun other hother => Prod.ext rfl (hvalues other hother)

/-- All frozen forms of a value are the same. -/
theorem FreezesTo.sameAs_freeze {v w : Value} (h : v.FreezesTo w) :
    v.freeze.sameAs w = true := by
  have hitems {items others : List Value}
      (h : List.Forall₂ (fun v w => v.freeze.sameAs w = true) items others) :
      List.Forall₂ (fun item other => item.sameAs other = true) (freezeItems items) others := by
    rw [freezeItems_eq_map, List.forall₂_map_left_iff]
    exact h
  refine FreezesTo.induction (P := fun v w => v.freeze.sameAs w = true) (fun v hv => ?_)
    (fun items others h => ?_) (fun items others h => ?_)
    (fun frozen items moved others h hperm => ?_) (fun frozen entries others h => ?_) h
  · cases v <;> first | exact sameAs_refl _ | cases hv
  · exact sameAs_tuple_iff.2 ⟨others, rfl, hitems h⟩
  · exact sameAs_tuple_iff.2 ⟨others, rfl, hitems h⟩
  · exact sameAs_set_iff_covers.2 ⟨true, others, rfl, covers_of_forall₂ (hitems h) hperm⟩
  · refine sameAs_mapping_iff_covers.2 ⟨true, others, rfl, covers_of_forall₂ ?_ (.refl _)⟩
    rw [freezeEntries_eq_map, List.forall₂_map_left_iff]
    exact h.imp fun entry other h => ⟨h.1 ▸ sameAs_refl _, h.2⟩

/-! ## What can be reached -/

/-- A list, or a set or mapping that was not frozen. -/
def isMutable : Value → Bool
  | list _ => true
  | set frozen _ => !frozen
  | mapping frozen _ => !frozen
  | _ => false

/-- From mappings, tuples and frozen sets one can go on to what they hold. -/
inductive Descends : Value → Value → Prop
  | key {frozen : Bool} {entries : Entries} {entry : Value × Value} (h : entry ∈ entries) :
      Descends (.mapping frozen entries) entry.1
  | value {frozen : Bool} {entries : Entries} {entry : Value × Value} (h : entry ∈ entries) :
      Descends (.mapping frozen entries) entry.2
  | item {items : List Value} {item : Value} (h : item ∈ items) : Descends (.tuple items) item
  | member {items : List Value} {item : Value} (h : item ∈ items) :
      Descends (.set true items) item

def Reaches : Value → Value → Prop :=
  Relation.ReflTransGen Descends

/-- At every depth, the keys of mappings and the items of sets are values that never change. -/
inductive IsFormed : Value → Prop
  | intro {v : Value}
      (keys : ∀ entries, v.asEntries? = some entries → ∀ entry ∈ entries, entry.1.isKey = true)
      (members : ∀ frozen items, v = .set frozen items → ∀ item ∈ items, item.isKey = true)
      (held : ∀ part ∈ v.held, IsFormed part) : IsFormed v

theorem areKeys_iff (items : List Value) :
    areKeys items = true ↔ ∀ item ∈ items, item.isKey = true := by
  induction items with
  | nil => simp [areKeys]
  | cons item rest ih => simp [areKeys, ih]

/-- A value that never changes is a frozen form of itself. -/
theorem IsFormed.freezesTo_self {v : Value} (hv : v.IsFormed) (hkey : v.isKey = true) :
    v.FreezesTo v := by
  induction v using Value.induction with
  | step v ih =>
  obtain ⟨-, hmembers, hheld⟩ := hv
  cases v with
  | list items => cases hkey
  | tuple items =>
      have hkeys := (areKeys_iff items).1 hkey
      exact .tuple (List.forall₂_same.2 fun item h => ih item h (hheld item h) (hkeys item h))
  | set frozen items =>
      obtain rfl : frozen = true := hkey
      refine .set (List.forall₂_same.2 fun item h => ?_) (.refl items)
      exact ih item h (hheld item h) (hmembers true items rfl item h)
  | mapping frozen entries => cases hkey
  | _ => exact .plain rfl

theorem FreezesTo.isMutable_eq_false {v w : Value} (h : v.FreezesTo w) : w.isMutable = false := by
  cases h with
  | plain hv => cases v <;> first | rfl | cases hv
  | _ => rfl

/-- One step down from a frozen form leads to a frozen form. -/
theorem FreezesTo.of_descends {v w part : Value} (hv : v.IsFormed) (h : v.FreezesTo w)
    (hstep : Descends w part) : ∃ u : Value, u.IsFormed ∧ u.FreezesTo part := by
  obtain ⟨hkeys, -, hheld⟩ := hv
  have hitems {parts others : List Value} (hparts : ∀ part ∈ parts, part ∈ v.held)
      (h : List.Forall₂ FreezesTo parts others) (hpart : part ∈ others) :
      ∃ u : Value, u.IsFormed ∧ u.FreezesTo part := by
    obtain ⟨u, hu, hform⟩ := exists_of_forall₂ h.flip part hpart
    exact ⟨u, hheld u (hparts u hu), hform⟩
  cases h with
  | plain hv => cases hstep <;> cases hv
  | list h =>
      cases hstep with
      | item hpart => exact hitems (fun _ h => h) h hpart
  | tuple h =>
      cases hstep with
      | item hpart => exact hitems (fun _ h => h) h hpart
  | set h hperm =>
      cases hstep with
      | member hpart => exact hitems (fun _ h => h) h (hperm.mem_iff.2 hpart)
  | @mapping frozen entries others hsame hvalues =>
      cases hstep with
      | key hentry =>
          have hkey := List.mem_map_of_mem (f := (·.1)) hentry
          rw [← hsame] at hkey
          have hformed := hheld _ (List.mem_append_left _ hkey)
          obtain ⟨found, hfound, hname⟩ := List.mem_map.1 hkey
          exact ⟨_, hformed, hformed.freezesTo_self (hname ▸ hkeys entries rfl found hfound)⟩
      | value hentry =>
          exact hitems (fun _ h => List.mem_append_right _ h) hvalues (List.mem_map_of_mem hentry)

/-- So nothing that can change is reached, however far one goes. -/
theorem FreezesTo.isMutable_of_reaches {v w part : Value} (hv : v.IsFormed) (h : v.FreezesTo w)
    (hreach : w.Reaches part) : part.isMutable = false := by
  have hform : ∃ u : Value, u.IsFormed ∧ u.FreezesTo part := by
    induction hreach with
    | refl => exact ⟨v, hv, h⟩
    | tail _ hstep ih =>
        obtain ⟨u, hu, hform⟩ := ih
        exact hform.of_descends hu hstep
  obtain ⟨u, -, hform⟩ := hform
  exact hform.isMutable_eq_false

/-- Freezing yields one of the frozen forms, and each of these is fixed and the same as the others,
has the canonical text of the value, and leads to nothing that can change. -/
theorem freeze_sealed (v : Value) :
    v.FreezesTo v.freeze ∧ ∀ w, v.FreezesTo w →
      w.freeze = w ∧ v.freeze.sameAs w = true ∧
        w.document.canonical = v.document.canonical ∧
        (v.IsFormed → ∀ part, w.Reaches part → part.isMutable = false) := by
  refine ⟨freezesTo_freeze v, fun w h => ⟨h.freeze_eq, h.sameAs_freeze, ?_, ?_⟩⟩
  · exact Document.canonical_eq_of_shown_eq h.shown_document.symm
  · exact fun hv part hreach => h.isMutable_of_reaches hv hreach

/-- A mapping to a list that holds a set. -/
def tagged : Value :=
  .mapping false [(.text "tags", .list [.set false [.integer 1, .text "a"]])]

theorem isFormed_tagged : tagged.IsFormed := by
  have htext (s : String) : (text s).IsFormed := ⟨nofun, nofun, nofun⟩
  have hinteger : (integer 1).IsFormed := ⟨nofun, nofun, nofun⟩
  have hset : (set false [.integer 1, .text "a"]).IsFormed := by
    refine ⟨nofun, fun frozen items h => ?_, ?_⟩
    · obtain ⟨-, rfl⟩ := set.inj h
      decide
    · exact List.forall_mem_cons.2 ⟨hinteger, List.forall_mem_singleton.2 (htext "a")⟩
  have hlist : (list [.set false [.integer 1, .text "a"]]).IsFormed :=
    ⟨nofun, nofun, List.forall_mem_singleton.2 hset⟩
  refine ⟨fun entries h => ?_, nofun, ?_⟩
  · obtain rfl := Option.some.inj h
    decide
  · exact List.forall_mem_cons.2 ⟨htext "tags", List.forall_mem_singleton.2 hlist⟩

/-- A frozen form that lists the set the other way round, and a step down to its tuple. -/
theorem freeze_sealed_tagged :
    tagged.FreezesTo
        (.mapping true [(.text "tags", .tuple [.set true [.text "a", .integer 1]])]) ∧
      Document.canonical (document
          (.mapping true [(.text "tags", .tuple [.set true [.text "a", .integer 1]])])) =
        tagged.document.canonical ∧
      tagged.IsFormed ∧
      Reaches (.mapping true [(.text "tags", .tuple [.set true [.text "a", .integer 1]])])
        (.tuple [.set true [.text "a", .integer 1]]) ∧
      isMutable (.tuple [.set true [.text "a", .integer 1]]) = false := by
  have hitems : List.Forall₂ FreezesTo [.integer 1, .text "a"] [.integer 1, .text "a"] :=
    .cons (.plain rfl) (.cons (.plain rfl) .nil)
  have hset : FreezesTo (.set false [.integer 1, .text "a"]) (.set true [.text "a", .integer 1]) :=
    .set hitems (.swap _ _ _)
  have hform : tagged.FreezesTo
      (.mapping true [(.text "tags", .tuple [.set true [.text "a", .integer 1]])]) :=
    .mapping rfl (.cons (.list (.cons hset .nil)) .nil)
  have hreach : Reaches (.mapping true [(.text "tags", .tuple [.set true [.text "a", .integer 1]])])
      (.tuple [.set true [.text "a", .integer 1]]) :=
    .single (.value List.mem_cons_self)
  obtain ⟨-, -, hcanonical, hsealed⟩ := (freeze_sealed tagged).2 _ hform
  exact ⟨hform, hcanonical, isFormed_tagged, hreach, hsealed isFormed_tagged _ hreach⟩

end Value

end Nomenclature
