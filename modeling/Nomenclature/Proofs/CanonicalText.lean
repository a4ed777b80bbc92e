import Mathlib.Data.List.Forall2
import Nomenclature.Proofs.Tokens

/-!
# The canonical text holds what the document holds

Two documents agree if they are the same up to the order of members. Documents that repeat no key
have one canonical text exactly if they agree. A document in front can be told from what follows it,
by induction over what it holds: the first character says whether it is a word, a text, an array or
an object, and the items and members between the marks can be told apart one by one. Members are
written in the order of their keys, which no other order of members changes.
-/

namespace Nomenclature

/-- Sorting by a feature sorts the features. -/
theorem map_sortedBy {α β : Type _} (le : β → β → Bool) (f : α → β) (xs : List α) :
    (sortedBy (fun a b => le (f a) (f b)) xs).map f = sortedBy le (xs.map f) := by
  have hinsert (x : α) (ys : List α) :
      (insertSorted (fun a b => le (f a) (f b)) x ys).map f = insertSorted le (f x) (ys.map f) := by
    induction ys with
    | nil => rfl
    | cons y ys ih =>
        rw [insertSorted, List.map_cons, insertSorted]
        split
        · rfl
        · rw [List.map_cons, ih]
  induction xs with
  | nil => rfl
  | cons x xs ih => rw [sortedBy, hinsert, ih, List.map_cons, sortedBy]

/-- Texts in order do not say in which order they stood. -/
theorem sortedBy_eq_of_perm {xs ys : List String} (h : xs.Perm ys) :
    sortedBy (fun a b => decide (a ≤ b)) xs = sortedBy (fun a b => decide (a ≤ b)) ys := by
  have hsorted (xs : List String) :
      (sortedBy (fun a b => decide (a ≤ b)) xs).Pairwise fun a b => decide (a ≤ b) = true :=
    pairwise_sortedBy (by simpa using String.le_total)
      (fun a b c => by simpa using String.le_trans) xs
  refine List.Perm.eq_of_pairwise (fun a b _ _ hle hge => ?_) (hsorted xs) (hsorted ys) ?_
  · exact String.le_antisymm (by simpa using hle) (by simpa using hge)
  · exact (sortedBy_perm _ xs).trans (h.trans (sortedBy_perm _ ys).symm)

namespace Document

abbrev Members := List (String × Document)

/-- The documents that a document holds directly. -/
def held : Document → List Document
  | array items => items
  | object members => members.map (·.2)
  | _ => []

theorem sizeOf_lt_of_mem_held {part document : Document} (h : part ∈ document.held) :
    sizeOf part < sizeOf document := by
  cases document with
  | array items =>
      have hlt : sizeOf part < sizeOf items := List.sizeOf_lt_of_mem h
      simp only [array.sizeOf_spec]
      omega
  | object members =>
      obtain ⟨⟨key, value⟩, hmember, rfl⟩ := List.mem_map.1 h
      have hlt := List.sizeOf_lt_of_mem hmember
      simp only [Prod.mk.sizeOf_spec, object.sizeOf_spec] at hlt ⊢
      omega
  | _ => simp [held] at h

/-- Induction from the documents that a document holds. -/
theorem induction {P : Document → Prop}
    (step : ∀ document, (∀ part ∈ document.held, P part) → P document) (document : Document) :
    P document :=
  step document fun part _ => induction step part
termination_by sizeOf document
decreasing_by exact sizeOf_lt_of_mem_held ‹_›

/-- No object repeats a key, at any depth. -/
inductive Tidy : Document → Prop
  | intro {document : Document}
      (keys : ∀ members, document = .object members → (members.map (·.1)).Nodup)
      (parts : ∀ part ∈ document.held, Tidy part) : Tidy document

/-- The same data: members are matched by their keys, in whatever order they stand. -/
inductive Agrees : Document → Document → Prop
  | null : Agrees .null .null
  | boolean (b : Bool) : Agrees (.boolean b) (.boolean b)
  | integer (n : Int) : Agrees (.integer n) (.integer n)
  | real {x y : Binary64} (h : Decimal.text realLayout x = Decimal.text realLayout y) :
      Agrees (.real x) (.real y)
  | text (s : String) : Agrees (.text s) (.text s)
  | array {items others : List Document} (h : List.Forall₂ Agrees items others) :
      Agrees (.array items) (.array others)
  | object {members others : List (String × Document)}
      (h : ∀ key, Option.Rel Agrees (members.lookup key) (others.lookup key)) :
      Agrees (.object members) (.object others)

section Members

variable {members others : Members} {R : Document → Document → Prop}

/-- The members in the order of their keys. -/
def ordered (members : Members) : Members :=
  sortedBy (fun a b => decide (a.1 ≤ b.1)) members

theorem map_ordered (members : Members) :
    (ordered members).map (·.1) = sortedBy (fun a b => decide (a ≤ b)) (members.map (·.1)) :=
  map_sortedBy (fun a b => decide (a ≤ b)) (·.1) members

theorem nodup_ordered (hkeys : (members.map (·.1)).Nodup) :
    ((ordered members).map (·.1)).Nodup :=
  (((sortedBy_perm _ members).map _).nodup_iff).2 hkeys

theorem lookup_eq_some_iff_mem (hkeys : (members.map (·.1)).Nodup) {key : String}
    {value : Document} : members.lookup key = some value ↔ (key, value) ∈ members := by
  induction members with
  | nil => simp
  | cons first rest ih =>
      obtain ⟨name, item⟩ := first
      obtain ⟨hfirst, hrest⟩ := List.nodup_cons.1 hkeys
      by_cases hkey : key = name
      · subst hkey
        have habsent : (key, value) ∉ rest := fun hmem =>
          hfirst (List.mem_map.2 ⟨(key, value), hmem, rfl⟩)
        simp [habsent, eq_comm]
      · have hne : (key == name) = false := by simpa using hkey
        simp [List.lookup_cons, hne, hkey, ih hrest]

theorem lookup_ordered (hkeys : (members.map (·.1)).Nodup) (key : String) :
    (ordered members).lookup key = members.lookup key := by
  refine Option.ext fun value => ?_
  rw [lookup_eq_some_iff_mem (nodup_ordered hkeys), lookup_eq_some_iff_mem hkeys]
  exact (sortedBy_perm _ members).mem_iff

theorem rel_lookup_of_forall₂
    (h : List.Forall₂ (fun m n => m.1 = n.1 ∧ R m.2 n.2) members others) (key : String) :
    Option.Rel R (members.lookup key) (others.lookup key) := by
  induction h with
  | nil => exact .none
  | cons hfirst _ ih =>
      rw [List.lookup_cons, List.lookup_cons, hfirst.1]
      split
      · exact .some hfirst.2
      · exact ih

theorem mem_keys_iff {key : String} :
    key ∈ members.map (·.1) ↔ (members.lookup key).isSome = true := by
  rw [List.lookup_isSome_iff, List.mem_map]
  constructor
  · rintro ⟨member, hmember, rfl⟩
    exact ⟨member, hmember, beq_self_eq_true _⟩
  · rintro ⟨member, hmember, hkey⟩
    exact ⟨member, hmember, (eq_of_beq hkey).symm⟩

theorem mem_keys_iff_of_rel (h : ∀ key, Option.Rel R (members.lookup key) (others.lookup key))
    (key : String) : key ∈ members.map (·.1) ↔ key ∈ others.map (·.1) := by
  have hsome {a b : Option Document} (hrel : Option.Rel R a b) : a.isSome = b.isSome := by
    cases hrel <;> rfl
  rw [mem_keys_iff, mem_keys_iff, hsome (h key)]

theorem forall₂_of_keys (hkeys : members.map (·.1) = others.map (·.1))
    (h : ∀ m ∈ members, ∀ n ∈ others, m.1 = n.1 → R m.2 n.2) :
    List.Forall₂ (fun m n => m.1 = n.1 ∧ R m.2 n.2) members others := by
  induction members generalizing others with
  | nil =>
      obtain rfl : others = [] := by simpa using hkeys.symm
      exact .nil
  | cons first rest ih =>
      cases others with
      | nil => simp at hkeys
      | cons second others =>
          obtain ⟨hfirst, hrest⟩ := List.cons.inj hkeys
          refine .cons ⟨hfirst, h _ List.mem_cons_self _ List.mem_cons_self hfirst⟩ (ih hrest ?_)
          intro m hm n hn
          exact h m (List.mem_cons_of_mem _ hm) n (List.mem_cons_of_mem _ hn)

theorem rel_of_mem (hmembers : (members.map (·.1)).Nodup) (hothers : (others.map (·.1)).Nodup)
    (h : ∀ key, Option.Rel R (members.lookup key) (others.lookup key))
    {m n : String × Document} (hm : m ∈ members) (hn : n ∈ others) (hname : m.1 = n.1) :
    R m.2 n.2 := by
  have hrel := h m.1
  rw [(lookup_eq_some_iff_mem hmembers).2 hm, hname, (lookup_eq_some_iff_mem hothers).2 hn] at hrel
  cases hrel
  assumption

/-- Members that are matched by their keys stand in the same order once they are ordered. -/
theorem forall₂_ordered (hmembers : (members.map (·.1)).Nodup) (hothers : (others.map (·.1)).Nodup)
    (h : ∀ key, Option.Rel R (members.lookup key) (others.lookup key)) :
    List.Forall₂ (fun m n => m.1 = n.1 ∧ R m.2 n.2) (ordered members) (ordered others) := by
  have hkeys : (ordered members).map (·.1) = (ordered others).map (·.1) := by
    have hperm : (members.map (·.1)).Perm (others.map (·.1)) :=
      (List.perm_ext_iff_of_nodup hmembers hothers).2 (mem_keys_iff_of_rel h)
    rw [map_ordered, map_ordered, sortedBy_eq_of_perm hperm]
  refine forall₂_of_keys hkeys fun m hm n hn hname => ?_
  exact rel_of_mem hmembers hothers h ((sortedBy_perm _ members).mem_iff.1 hm)
    ((sortedBy_perm _ others).mem_iff.1 hn) hname

end Members

/-- The mark that a document other than a word begins with. -/
def opening? : Document → Option Char
  | text _ => some '"'
  | array _ => some '['
  | object _ => some '{'
  | _ => none

/-- The characters that only stand between words. -/
def isBetween (c : Char) : Bool :=
  c ∈ ['"', '[', '{', ',', ']', '}']

theorem itemsChars_eq_map (items : List Document) : itemsChars items = items.map chars := by
  induction items with
  | nil => rfl
  | cons item rest ih => rw [itemsChars, ih, List.map_cons]

theorem membersChars_eq_map (members : Members) :
    membersChars members = members.map fun member => (member.1, member.2.chars) := by
  induction members with
  | nil => rfl
  | cons member rest ih => rw [membersChars, ih, List.map_cons]

/-- A member as it stands in a canonical text. -/
def writtenMember (member : String × Document) : List Char :=
  memberChars (member.1, member.2.chars)

theorem writtenMember_append (member : String × Document) (rest : List Char) :
    writtenMember member ++ rest = textChars member.1 ++ ':' :: (member.2.chars ++ rest) := by
  simp [writtenMember, memberChars]

theorem writtenMember_eq_cons (member : String × Document) :
    ∃ c cs, writtenMember member = c :: cs ∧ c ∉ marks :=
  ⟨'"', _, rfl, by decide⟩

theorem mem_held_of_ordered {members : Members} {member : String × Document}
    (h : member ∈ ordered members) : member.2 ∈ (object members).held :=
  List.mem_map_of_mem ((sortedBy_perm _ members).mem_iff.1 h)

theorem chars_array (items : List Document) :
    (array items).chars = '[' :: ([','].intercalate (items.map chars) ++ [']']) := by
  rw [chars, itemsChars_eq_map]

theorem chars_object (members : Members) :
    (object members).chars =
      '{' :: ([','].intercalate ((ordered members).map writtenMember) ++ ['}']) := by
  have hsorted : sortedMembers (membersChars members) =
      (ordered members).map fun member => (member.1, member.2.chars) := by
    rw [membersChars_eq_map, sortedMembers, ordered]
    exact (map_sortedBy (fun a b => decide (a.1 ≤ b.1))
      (fun member : String × Document => (member.1, member.2.chars)) members).symm
  rw [chars, hsorted, List.map_map]
  rfl

theorem isRealChar_eq_false_of_isBetween {c : Char} (hc : isBetween c) : isRealChar c = false := by
  simp only [isBetween, List.mem_cons, List.not_mem_nil, or_false, decide_eq_true_eq] at hc
  rcases hc with rfl | rfl | rfl | rfl | rfl | rfl <;> decide

/-- A word is made of characters that never stand between words. -/
theorem isBetween_of_word {d : Document} (hd : d.opening? = none) :
    ∀ c ∈ d.chars, isBetween c = false := by
  have hreal {c : Char} (hc : isRealChar c) : isBetween c = false := by
    rw [← Bool.not_eq_true]
    intro hbetween
    rw [isRealChar_eq_false_of_isBetween hbetween] at hc
    exact Bool.noConfusion hc
  have hliteral {word : List Char} (hword : word.any isBetween = false) :
      ∀ c ∈ word, isBetween c = false := by
    simpa using hword
  cases d with
  | null => exact hliteral (by decide)
  | boolean b => exact hliteral (by cases b <;> decide)
  | integer n =>
      intro c hc
      exact hreal (isRealChar_of_isIntegerChar (isIntegerChar_integerChars n c hc))
  | real x =>
      intro c hc
      exact hreal ((realText_alphabet x).1 c hc)
  | _ => simp [opening?] at hd

theorem not_mem_marks_of_word {d : Document} (hd : d.opening? = none) :
    ∀ c ∈ d.chars, c ∉ marks := by
  intro c hc hmark
  have hbetween := isBetween_of_word hd c hc
  have hmarks : ∀ mark ∈ marks, isBetween mark = true := List.all_eq_true.1 (by decide)
  rw [hmarks c hmark] at hbetween
  exact Bool.noConfusion hbetween

/-- A document begins with its opening mark, and a word with a character of its own. -/
theorem chars_eq_cons (d : Document) :
    ∃ c rest, d.chars = c :: rest ∧ c ∉ marks ∧ d.opening? = [c].find? isBetween := by
  have hword {d : Document} (hd : d.opening? = none) (hne : d.chars ≠ []) :
      ∃ c rest, d.chars = c :: rest ∧ c ∉ marks ∧ d.opening? = [c].find? isBetween := by
    obtain ⟨c, rest, hchars⟩ := List.exists_cons_of_ne_nil hne
    have hmem : c ∈ d.chars := by
      rw [hchars]
      exact List.mem_cons_self
    refine ⟨c, rest, hchars, not_mem_marks_of_word hd c hmem, ?_⟩
    rw [hd, List.find?_cons, isBetween_of_word hd c hmem]
    rfl
  cases d with
  | null => exact hword rfl (by simp [chars])
  | boolean b => exact hword rfl (by cases b <;> simp [chars])
  | integer n => exact hword rfl (integerChars_ne_nil n)
  | real x =>
      obtain ⟨c, hc, -⟩ := (realText_alphabet x).2
      exact hword rfl (List.ne_nil_of_mem hc)
  | text s => exact ⟨'"', _, rfl, by decide, rfl⟩
  | array items => exact ⟨'[', _, rfl, by decide, rfl⟩
  | object members => exact ⟨'{', _, rfl, by decide, rfl⟩

/-- Words of one text agree. -/
theorem agrees_of_word {d e : Document} (hd : d.opening? = none) (he : e.opening? = none)
    (h : d.chars = e.chars) : d.Agrees e := by
  have hletter {x : Binary64} {word : List Char} (hword : word.all isRealChar = false)
      (hreal : (Decimal.text realLayout x).toList = word) : False := by
    have hall := List.all_eq_true.2 (realText_alphabet x).1
    rw [hreal, hword] at hall
    exact Bool.noConfusion hall
  have hinteger {n : Int} {word : List Char} (hword : word.all isIntegerChar = false)
      (hinteger : Text.integerChars n = word) : False := by
    have hall := List.all_eq_true.2 (isIntegerChar_integerChars n)
    rw [hinteger, hword] at hall
    exact Bool.noConfusion hall
  have hmark (x : Binary64) : (Decimal.text realLayout x).toList.all isIntegerChar = false := by
    obtain ⟨c, hc, hmark⟩ := (realText_alphabet x).2
    exact List.all_eq_false.2 ⟨c, hc, not_isIntegerChar_of_isRealMark hmark⟩
  cases d with
  | null =>
      cases e with
      | null => exact .null
      | boolean b => cases b <;> simp [chars] at h
      | integer m => exact (hinteger (by decide) h.symm).elim
      | real y => exact (hletter (by decide) h.symm).elim
      | _ => simp [opening?] at he
  | boolean b =>
      cases e with
      | null => cases b <;> simp [chars] at h
      | boolean b' => cases b <;> cases b' <;> first | exact .boolean _ | simp [chars] at h
      | integer m => exact (hinteger (by cases b <;> decide) h.symm).elim
      | real y => exact (hletter (by cases b <;> decide) h.symm).elim
      | _ => simp [opening?] at he
  | integer n =>
      cases e with
      | null => exact (hinteger (by decide) h).elim
      | boolean b => exact (hinteger (by cases b <;> decide) h).elim
      | integer m =>
          obtain rfl := integerChars_injective h
          exact .integer n
      | real y => exact (hinteger (hmark y) h).elim
      | _ => simp [opening?] at he
  | real x =>
      cases e with
      | null => exact (hletter (by decide) h).elim
      | boolean b => exact (hletter (by cases b <;> decide) h).elim
      | integer m => exact (hinteger (hmark x) h.symm).elim
      | real y => exact .real (String.toList_inj.1 h)
      | _ => simp [opening?] at he
  | _ => simp [opening?] at hd

section Separated

variable {α : Type} {write : α → List Char} {R : α → α → Prop} {close : Char} {gap : List Char}

theorem intercalate_map_cons (gap : List Char) (write : α → List Char) (x : α) (xs : List α) :
    (',' :: gap).intercalate ((x :: xs).map write) =
      write x ++ xs.flatMap fun x => ',' :: (gap ++ write x) := by
  induction xs generalizing x with
  | nil => simp
  | cons y ys ih =>
      rw [List.map_cons, List.map_cons, List.intercalate_cons_cons, ← List.map_cons, ih]
      simp

theorem endsToken_flatMap (hclose : close ∈ marks) (xs : List α) (rest : List Char) :
    EndsToken (xs.flatMap (fun x => ',' :: (gap ++ write x)) ++ close :: rest) := by
  intro c hc
  cases xs with
  | nil =>
      obtain rfl : close = c := by simpa using hc
      exact hclose
  | cons x xs =>
      obtain rfl : ',' = c := by simpa using hc
      decide

theorem flatMap_cancel (hclose : close ∈ marks) (hcomma : close ≠ ',') {xs ys : List α}
    (hcancel : ∀ x ∈ xs, ∀ y ∈ ys, ∀ rest others, EndsToken rest → EndsToken others →
      write x ++ rest = write y ++ others → R x y ∧ rest = others)
    {rest others : List Char}
    (h : xs.flatMap (fun x => ',' :: (gap ++ write x)) ++ close :: rest =
      ys.flatMap (fun x => ',' :: (gap ++ write x)) ++ close :: others) :
    List.Forall₂ R xs ys ∧ rest = others := by
  induction xs generalizing ys with
  | nil =>
      cases ys with
      | nil => exact ⟨.nil, by simpa using h⟩
      | cons y ys => exact absurd (by simpa using congrArg List.head? h) hcomma
  | cons x xs ih =>
      cases ys with
      | nil => exact absurd (by simpa using congrArg List.head? h.symm) hcomma
      | cons y ys =>
          simp only [List.flatMap_cons, List.cons_append, List.append_assoc, List.cons.injEq,
            true_and, List.append_cancel_left_eq] at h
          obtain ⟨hxy, hrest⟩ := hcancel x List.mem_cons_self y List.mem_cons_self _ _
            (endsToken_flatMap hclose xs rest) (endsToken_flatMap hclose ys others) h
          obtain ⟨hitems, hsame⟩ := ih (fun x hx y hy => hcancel x (List.mem_cons_of_mem _ hx) y
            (List.mem_cons_of_mem _ hy)) hrest
          exact ⟨.cons hxy hitems, hsame⟩

/-- What is separated by commas, with or without a gap, and closed by another mark can be told
apart one by one, and from what follows. -/
theorem intercalate_cancel (hclose : close ∈ marks) (hcomma : close ≠ ',')
    (hstart : ∀ x, ∃ c cs, write x = c :: cs ∧ c ∉ marks) {xs ys : List α}
    (hcancel : ∀ x ∈ xs, ∀ y ∈ ys, ∀ rest others, EndsToken rest → EndsToken others →
      write x ++ rest = write y ++ others → R x y ∧ rest = others)
    {rest others : List Char}
    (h : (',' :: gap).intercalate (xs.map write) ++ close :: rest =
      (',' :: gap).intercalate (ys.map write) ++ close :: others) :
    List.Forall₂ R xs ys ∧ rest = others := by
  have hempty {y : α} {ys : List α} {rest others : List Char}
      (h : close :: rest = (',' :: gap).intercalate ((y :: ys).map write) ++ close :: others) :
      False := by
    obtain ⟨c, cs, hy, hc⟩ := hstart y
    rw [intercalate_map_cons, hy] at h
    exact hc ((List.cons.inj h).1 ▸ hclose)
  cases xs with
  | nil =>
      cases ys with
      | nil => exact ⟨.nil, by simpa using h⟩
      | cons y ys => exact (hempty h).elim
  | cons x xs =>
      cases ys with
      | nil => exact (hempty h.symm).elim
      | cons y ys =>
          rw [intercalate_map_cons, intercalate_map_cons, List.append_assoc, List.append_assoc] at h
          obtain ⟨hxy, htails⟩ := hcancel x List.mem_cons_self y List.mem_cons_self _ _
            (endsToken_flatMap hclose xs rest) (endsToken_flatMap hclose ys others) h
          obtain ⟨hitems, hsame⟩ := flatMap_cancel hclose hcomma
            (fun x hx y hy => hcancel x (List.mem_cons_of_mem _ hx) y (List.mem_cons_of_mem _ hy))
            htails
          exact ⟨.cons hxy hitems, hsame⟩

end Separated

theorem opening?_eq_of_append {d e : Document} {rest others : List Char}
    (h : d.chars ++ rest = e.chars ++ others) : d.opening? = e.opening? := by
  obtain ⟨c, cs, hd, -, hopening⟩ := d.chars_eq_cons
  obtain ⟨c', cs', he, -, hopening'⟩ := e.chars_eq_cons
  rw [hd, he] at h
  obtain ⟨rfl, -⟩ := List.cons.inj h
  rw [hopening, hopening']

/-- A document in front can be told, up to agreement, from what follows it. -/
theorem chars_cancel {d e : Document} (hd : d.Tidy) (he : e.Tidy) {rest others : List Char}
    (hrest : EndsToken rest) (hothers : EndsToken others)
    (h : d.chars ++ rest = e.chars ++ others) : d.Agrees e ∧ rest = others := by
  induction d using induction generalizing e rest others with
  | step d ih =>
  obtain ⟨hkeys, hparts⟩ := hd
  obtain ⟨hkeys', hparts'⟩ := he
  have hopening := opening?_eq_of_append h
  cases hd : d.opening? with
  | none =>
      obtain ⟨hchars, hsame⟩ := word_cancel (not_mem_marks_of_word hd)
        (not_mem_marks_of_word (hopening ▸ hd)) hrest hothers h
      exact ⟨agrees_of_word hd (hopening ▸ hd) hchars, hsame⟩
  | some c =>
      cases d with
      | text s =>
          cases e with
          | text t =>
              obtain ⟨rfl, hsame⟩ := textChars_cancel h
              exact ⟨.text s, hsame⟩
          | _ => simp [opening?] at hopening
      | array items =>
          cases e with
          | array others =>
              rw [chars_array, chars_array] at h
              simp only [List.cons_append, List.append_assoc, List.cons.injEq, true_and,
                List.nil_append] at h
              obtain ⟨hitems, hsame⟩ := intercalate_cancel (by decide) (by decide)
                (fun d => by
                  obtain ⟨c, cs, hd, hc, -⟩ := d.chars_eq_cons
                  exact ⟨c, cs, hd, hc⟩)
                (fun item hitem other hother rest others hrest hothers h =>
                  ih item hitem (hparts item hitem) (hparts' other hother) hrest hothers h) h
              exact ⟨.array hitems, hsame⟩
          | _ => simp [opening?] at hopening
      | object members =>
          cases e with
          | object others =>
              rw [chars_object, chars_object] at h
              simp only [List.cons_append, List.append_assoc, List.cons.injEq, true_and,
                List.nil_append] at h
              have hcancel : ∀ m ∈ ordered members, ∀ n ∈ ordered others, ∀ rest others,
                  EndsToken rest → EndsToken others →
                    writtenMember m ++ rest = writtenMember n ++ others →
                      (m.1 = n.1 ∧ m.2.Agrees n.2) ∧ rest = others := by
                intro m hm n hn rest others hrest hothers h
                rw [writtenMember_append, writtenMember_append] at h
                obtain ⟨hname, hvalue⟩ := textChars_cancel h
                obtain ⟨hagrees, hsame⟩ := ih m.2 (mem_held_of_ordered hm)
                  (hparts m.2 (mem_held_of_ordered hm)) (hparts' n.2 (mem_held_of_ordered hn))
                  hrest hothers (List.cons.inj hvalue).2
                exact ⟨⟨hname, hagrees⟩, hsame⟩
              obtain ⟨hmembers, hsame⟩ := intercalate_cancel (by decide) (by decide)
                writtenMember_eq_cons hcancel h
              refine ⟨.object fun key => ?_, hsame⟩
              rw [← lookup_ordered (hkeys members rfl), ← lookup_ordered (hkeys' others rfl)]
              exact rel_lookup_of_forall₂ hmembers key
          | _ => simp [opening?] at hopening
      | _ => simp [opening?] at hd

theorem map_eq_of_forall₂ {α β : Type _} {f : α → β} {R : α → α → Prop} {xs ys : List α}
    (h : List.Forall₂ R xs ys) (hsame : ∀ x ∈ xs, ∀ y ∈ ys, R x y → f x = f y) :
    xs.map f = ys.map f := by
  induction h with
  | nil => rfl
  | cons hfirst _ ih =>
      rw [List.map_cons, List.map_cons, hsame _ List.mem_cons_self _ List.mem_cons_self hfirst]
      rw [ih fun x hx y hy => hsame x (List.mem_cons_of_mem _ hx) y (List.mem_cons_of_mem _ hy)]

/-- Documents that agree have one canonical text. -/
theorem Agrees.chars_eq {d e : Document} (hd : d.Tidy) (he : e.Tidy) (h : d.Agrees e) :
    d.chars = e.chars := by
  induction d using induction generalizing e with
  | step d ih =>
  obtain ⟨hkeys, hparts⟩ := hd
  obtain ⟨hkeys', hparts'⟩ := he
  cases h with
  | null => rfl
  | boolean b => rfl
  | integer n => rfl
  | text s => rfl
  | real h => rw [chars, chars, h]
  | @array items others h =>
      have hitems : items.map chars = others.map chars :=
        map_eq_of_forall₂ h fun item hitem other hother h =>
          ih item hitem (hparts item hitem) (hparts' other hother) h
      rw [chars_array, chars_array, hitems]
  | @object members others h =>
      have hmembers := forall₂_ordered (hkeys members rfl) (hkeys' others rfl) h
      have hwritten : (ordered members).map writtenMember = (ordered others).map writtenMember :=
        map_eq_of_forall₂ hmembers fun m hm n hn h => by
          rw [writtenMember, writtenMember, h.1, ih m.2 (mem_held_of_ordered hm)
            (hparts m.2 (mem_held_of_ordered hm)) (hparts' n.2 (mem_held_of_ordered hn)) h.2]
      rw [chars_object, chars_object, hwritten]

/-- Documents that repeat no key have one canonical text exactly if they agree. -/
theorem canonical_eq_iff {d e : Document} (hd : d.Tidy) (he : e.Tidy) :
    d.canonical = e.canonical ↔ d.Agrees e := by
  constructor
  · intro h
    have hchars : d.chars ++ [] = e.chars ++ [] := by rw [String.ofList_injective h]
    have hend : EndsToken [] := by simp [EndsToken]
    exact (chars_cancel hd he hend hend hchars).1
  · intro h
    rw [canonical, h.chars_eq hd he, canonical]

end Document

end Nomenclature
