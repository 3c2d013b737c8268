import TivaAws.Foundation.Runs
import TivaAws.Rtos.KernelList

/-!
# Runs of the kernel's list operations

The memory holds any number of lists, and an item is in one of them at most. Every sequence of
operations whose callers keep the contract of `list.c` does to the memory what `Items` says, and
hands back the same answers.
-/

namespace TivaAws.Rtos.Kernel

open Runs

variable {α : Type*} [DecidableEq α]

/-! ## Model -/

/-- A call. -/
inductive ListEvent (α : Type*) where
  | initialise (pxList : α)
  | initialiseItem (pxItem : α)
  | setValue (pxListItem : α) (xValue : ℕ)
  | insertEnd (pxList pxNewListItem : α)
  | insert (pxList pxNewListItem : α)
  | remove (pxItemToRemove : α)
  | getNext (pxList : α)
  deriving DecidableEq, Repr

/-- What a call hands back. -/
inductive ListAnswer (α : Type*) where
  | remaining (uxNumberOfItems : ℕ)
  | entry (pxIndex : α)
  deriving DecidableEq, Repr

/-- A state with the answers so far, the last one first. -/
structure Answered (σ α : Type*) where
  state : σ
  answers : List (ListAnswer α)

/-- One call on the memory; `none` if `NULL` is followed or a loop does not end. -/
def ListMemory.step (s : Answered (ListMemory α) α) :
    ListEvent α → Option (Answered (ListMemory α) α)
  | .initialise pxList => some ⟨vListInitialise pxList s.state, s.answers⟩
  | .initialiseItem pxItem => some ⟨vListInitialiseItem pxItem s.state, s.answers⟩
  | .setValue pxListItem xValue =>
      some ⟨listSetListItemValue pxListItem xValue s.state, s.answers⟩
  | .insertEnd pxList pxNewListItem => do
      let m ← vListInsertEnd pxList pxNewListItem s.state
      pure ⟨m, s.answers⟩
  | .insert pxList pxNewListItem => do
      let m ← vListInsert pxList pxNewListItem s.state
      pure ⟨m, s.answers⟩
  | .remove pxItemToRemove => do
      let (uxNumberOfItems, m) ← uxListRemove pxItemToRemove s.state
      pure ⟨m, .remaining uxNumberOfItems :: s.answers⟩
  | .getNext pxList => do
      let (pxIndex, m) ← listGetNextEntry pxList s.state
      pure ⟨m, .entry pxIndex :: s.answers⟩

/-! ## Lists of items -/

/-- The lists that are initialised, the values of the items, and for an item that is initialised the
list that it is in. `inserted` numbers the insertions. -/
structure Lists (α : Type*) where
  lists : α → Option (Items α)
  value : α → ℕ
  container : α → Option (Option α)
  inserted : α → ℕ
  insertions : ℕ

namespace Lists

/-- Before any call. -/
def start (value : α → ℕ) : Lists α := ⟨fun _ => none, value, fun _ => none, fun _ => 0, 0⟩

/-- A list changes. -/
def set (pxList : α) (l : Items α) (s : Lists α) : Lists α :=
  { s with lists := Function.update s.lists pxList (some l) }

@[simp] theorem set_self (pxList : α) (l : Items α) (s : Lists α) :
    (s.set pxList l).lists pxList = some l := Function.update_self _ _ _

theorem set_other {pxList other : α} (l : Items α) (s : Lists α) (hne : other ≠ pxList) :
    (s.set pxList l).lists other = s.lists other := Function.update_of_ne hne _ _

/-- An item comes into a list or leaves it. -/
def move (x : α) (container : Option α) (s : Lists α) : Lists α :=
  { s with container := Function.update s.container x (some container) }

/-- The next number is the item's. -/
def number (x : α) (s : Lists α) : Lists α :=
  { s with inserted := Function.update s.inserted x s.insertions, insertions := s.insertions + 1 }

/-- What a call is for. -/
def step (s : Answered (Lists α) α) : ListEvent α → Option (Answered (Lists α) α)
  | .initialise pxList =>
      some ⟨{ s.state.set pxList ⟨[], pxList⟩ with
        value := Function.update s.state.value pxList portMaxDelay }, s.answers⟩
  | .initialiseItem x => some ⟨s.state.move x none, s.answers⟩
  | .setValue x xValue =>
      some ⟨{ s.state with value := Function.update s.state.value x xValue }, s.answers⟩
  | .insertEnd pxList x => do
      let l ← s.state.lists pxList
      pure ⟨((s.state.set pxList (l.insertEnd x)).move x (some pxList)).number x, s.answers⟩
  | .insert pxList x => do
      let l ← s.state.lists pxList
      pure ⟨((s.state.set pxList (l.insert s.state.value x)).move x (some pxList)).number x,
        s.answers⟩
  | .remove x => do
      let pxList ← (s.state.container x).join
      let l ← s.state.lists pxList
      pure ⟨(s.state.set pxList (l.remove pxList x)).move x none,
        .remaining (l.items.length - 1) :: s.answers⟩
  | .getNext pxList => do
      let l ← s.state.lists pxList
      let c ← l.turns.head?
      pure ⟨s.state.set pxList l.next, .entry c :: s.answers⟩

/-- The contract: a list is initialised once, an item before its first insertion; an item is put
into one list at a time and taken out of the one that it is in; a list that is walked along is not
empty. -/
def Allowed (s : Answered (Lists α) α) : ListEvent α → Prop
  | .initialise pxList => s.state.lists pxList = none ∧ s.state.container pxList = none
  | .initialiseItem x => s.state.lists x = none ∧ (s.state.container x).join = none
  | .setValue x xValue => s.state.lists x = none ∧ xValue ≤ portMaxDelay
  | .insertEnd pxList x => (s.state.lists pxList).isSome ∧ s.state.container x = some none
  | .insert pxList x => (s.state.lists pxList).isSome ∧ s.state.container x = some none
  | .remove x => (s.state.container x).join.isSome
  | .getNext pxList => ∃ l ∈ s.state.lists pxList, l.items ≠ []

instance (s : Answered (Lists α) α) : (event : ListEvent α) → Decidable (Allowed s event)
  | .initialise pxList =>
      inferInstanceAs (Decidable (s.state.lists pxList = none ∧ s.state.container pxList = none))
  | .initialiseItem x =>
      inferInstanceAs (Decidable (s.state.lists x = none ∧ (s.state.container x).join = none))
  | .setValue x xValue =>
      inferInstanceAs (Decidable (s.state.lists x = none ∧ xValue ≤ portMaxDelay))
  | .insertEnd pxList x =>
      inferInstanceAs (Decidable ((s.state.lists pxList).isSome ∧ s.state.container x = some none))
  | .insert pxList x =>
      inferInstanceAs (Decidable ((s.state.lists pxList).isSome ∧ s.state.container x = some none))
  | .remove x => inferInstanceAs (Decidable ((s.state.container x).join.isSome))
  | .getNext pxList =>
      inferInstanceAs (Decidable (∃ l ∈ s.state.lists pxList, l.items ≠ []))

end Lists

/-! ## All the lists in memory -/

/-- The memory holds the lists, and no item is in two of them. -/
structure Represents (m : ListMemory α) (s : Lists α) : Prop where
  isList : ∀ pxList l, s.lists pxList = some l → IsList m pxList l
  contained : ∀ c pxList, s.container c = some (some pxList) ↔
    ∃ l, s.lists pxList = some l ∧ c ∈ l.items
  container : ∀ c o, s.container c = some o → m.pvContainer c = o
  markers : ∀ pxList, (s.lists pxList).isSome → s.container pxList = none
  value : m.xItemValue = s.value
  bounded : ∀ c, m.xItemValue c ≤ portMaxDelay

variable {m m' : ListMemory α} {s : Lists α} {l l' : Items α} {pxList x c : α} {cells : List α}

namespace Represents

omit [DecidableEq α] in
theorem start (m : ListMemory α) (hbounded : ∀ c, m.xItemValue c ≤ portMaxDelay) :
    Represents m (Lists.start m.xItemValue) where
  isList _ _ h := by cases h
  contained c pxList := by
    constructor
    · intro h
      cases h
    · rintro ⟨l, h, -⟩
      cases h
  container _ _ h := by cases h
  markers _ _ := rfl
  value := rfl
  bounded := hbounded

omit [DecidableEq α] in
/-- The cells of a list are not those of another one. -/
theorem apart (h : Represents m s) {other : α} {k : Items α} (hk : s.lists other = some k)
    (hl : s.lists pxList = some l) (hne : other ≠ pxList) (hc : c ∈ other :: k.items) :
    c ∉ pxList :: l.items := by
  intro hc'
  have hother := h.markers other (Option.isSome_of_eq_some hk)
  have hmarker := h.markers pxList (Option.isSome_of_eq_some hl)
  rcases List.mem_cons.mp hc with rfl | hc <;> rcases List.mem_cons.mp hc' with rfl | hc'
  · exact hne rfl
  · cases hother.symm.trans ((h.contained c pxList).mpr ⟨l, hl, hc'⟩)
  · cases hmarker.symm.trans ((h.contained c other).mpr ⟨k, hk, hc⟩)
  · have heq := ((h.contained c other).mpr ⟨k, hk, hc⟩).symm.trans
      ((h.contained c pxList).mpr ⟨l, hl, hc'⟩)
    exact hne (Option.some.inj (Option.some.inj heq))

omit [DecidableEq α] in
/-- An item that is in no list is not a cell of one. -/
theorem apart_free (h : Represents m s) (hl : s.lists pxList = some l)
    (hx : s.container x = some none) : x ∉ pxList :: l.items := by
  intro hmem
  rcases List.mem_cons.mp hmem with rfl | hmem
  · cases (h.markers x (Option.isSome_of_eq_some hl)).symm.trans hx
  · cases hx.symm.trans ((h.contained x pxList).mpr ⟨l, hl, hmem⟩)

/-- One list changes, and an item comes into it or leaves it. -/
theorem move (h : Represents m s) (hl : s.lists pxList = some l) {o o' : Option α}
    (hx : s.container x = some o) (ho : ∀ other ≠ pxList, o ≠ some other)
    (ho' : ∀ other ≠ pxList, o' ≠ some other) (hlist : IsList m' pxList l')
    (honly : Only cells pxList m m') (hcells : ∀ c ∈ cells, c ∈ x :: pxList :: l.items)
    (hmem : ∀ c, c ∈ l'.items ↔ if c = x then o' = some pxList else c ∈ l.items)
    (hxout : m'.pvContainer x = o') : Represents m' ((s.set pxList l').move x o') := by
  have hxmarker : ∀ other, (s.lists other).isSome → other ≠ x := by
    rintro other hother rfl
    cases (h.markers other hother).symm.trans hx
  have hsome : ∀ other, ((s.set pxList l').lists other).isSome → (s.lists other).isSome := by
    intro other hother
    by_cases hne : other = pxList
    · rw [hne, hl]
      rfl
    · unfold Lists.set at hother
      simp only [Function.update_of_ne hne] at hother
      exact hother
  have hpx := hxmarker pxList (Option.isSome_of_eq_some hl)
  refine ⟨fun other k hk => ?_, fun c other => ?_, fun c w hc => ?_, fun other hother => ?_,
    honly.values.trans h.value, fun c => (congrFun honly.values c).trans_le (h.bounded c)⟩
  · by_cases hne : other = pxList
    · subst hne
      have hnew : Function.update s.lists other (some l') other = some k := hk
      rw [Function.update_self] at hnew
      exact Option.some.inj hnew ▸ hlist
    · have hold : Function.update s.lists pxList (some l') other = some k := hk
      rw [Function.update_of_ne hne] at hold
      refine (h.isList other k hold).frame honly hne fun c hc hcell => ?_
      rcases List.mem_cons.mp (hcells c hcell) with rfl | hmine
      · rcases List.mem_cons.mp hc with rfl | hc
        · exact hxmarker c (Option.isSome_of_eq_some hold) rfl
        · exact ho other hne (Option.some.inj
            (hx.symm.trans ((h.contained c other).mpr ⟨k, hold, hc⟩)))
      · exact h.apart hold hl hne hc hmine
  · show Function.update s.container x (some o') c = some (some other) ↔
      ∃ k, Function.update s.lists pxList (some l') other = some k ∧ c ∈ k.items
    by_cases hne : other = pxList
    · subst hne
      have hiff : (∃ k, Function.update s.lists other (some l') other = some k ∧ c ∈ k.items) ↔
          c ∈ l'.items := by
        rw [Function.update_self]
        simp only [Option.some.injEq, exists_eq_left']
      rw [hiff, hmem c]
      by_cases hcx : c = x
      · rw [hcx, Function.update_self, if_pos rfl, Option.some.injEq]
      · rw [Function.update_of_ne hcx, if_neg hcx, h.contained, hl]
        simp only [Option.some.injEq, exists_eq_left']
    · rw [Function.update_of_ne hne, ← h.contained]
      by_cases hcx : c = x
      · rw [hcx, Function.update_self, hx, Option.some.injEq, Option.some.injEq]
        exact iff_of_false (ho' other hne) (ho other hne)
      · rw [Function.update_of_ne hcx]
  · have hnew : Function.update s.container x (some o') c = some w := hc
    by_cases hcx : c = x
    · rw [hcx, Function.update_self] at hnew
      rw [hcx, hxout, Option.some.inj hnew]
    · rw [Function.update_of_ne hcx] at hnew
      by_cases hcell : c ∈ cells
      · rcases List.mem_cons.mp ((List.mem_cons.mp (hcells c hcell)).resolve_left hcx) with
          rfl | hin
        · cases (h.markers c (Option.isSome_of_eq_some hl)).symm.trans hnew
        · have hin' : c ∈ l'.items := (hmem c).mpr (by rwa [if_neg hcx])
          have hw := hnew.symm.trans ((h.contained c pxList).mpr ⟨l, hl, hin⟩)
          rw [hlist.contained c hin', Option.some.inj hw]
      · exact (honly.container c hcell).trans (h.container c w hnew)
  · show Function.update s.container x (some o') other = none
    rw [Function.update_of_ne (hxmarker other (hsome other hother))]
    exact h.markers other (hsome other hother)

/-- The walk along one list goes on. -/
theorem walk (h : Represents m s) (hl : s.lists pxList = some l) (hlist : IsList m' pxList l')
    (honly : Only [] pxList m m') (hitems : l'.items = l.items) :
    Represents m' (s.set pxList l') := by
  have hget : ∀ other ≠ pxList, (s.set pxList l').lists other = s.lists other :=
    fun other hne => s.set_other l' hne
  have hself := s.set_self pxList l'
  refine ⟨fun other k hk => ?_, fun c other => (h.contained c other).trans ?_, fun c o hc => ?_,
    fun other hother => ?_, honly.values.trans h.value,
    fun c => (congrFun honly.values c).trans_le (h.bounded c)⟩
  · by_cases hne : other = pxList
    · rw [hne] at hk ⊢
      exact Option.some.inj (hself.symm.trans hk) ▸ hlist
    · exact (h.isList other k (hget other hne ▸ hk)).frame honly hne fun _ _ => List.not_mem_nil
  · by_cases hne : other = pxList
    · rw [hne, hself, hl]
      simp only [Option.some.injEq, exists_eq_left', hitems]
    · rw [hget other hne]
  · exact (honly.container c List.not_mem_nil).trans (h.container c o hc)
  · refine h.markers other ?_
    by_cases hne : other = pxList
    · rw [hne, hl]
      rfl
    · rwa [hget other hne] at hother

/-- The numbers of the items are not in the memory. -/
theorem number (h : Represents m s) (x : α) : Represents m (s.number x) :=
  ⟨h.isList, h.contained, h.container, h.markers, h.value, h.bounded⟩

/-- An item comes into a list. -/
theorem insertItem (h : Represents m s) (hl : s.lists pxList = some l)
    (hx : s.container x = some none) (hlist : IsList m' pxList l')
    (honly : Only (x :: pxList :: l.items) pxList m m') (hperm : l'.items.Perm (x :: l.items)) :
    Represents m' (((s.set pxList l').move x (some pxList)).number x) := by
  have hmem : ∀ c, c ∈ l'.items ↔ if c = x then some pxList = some pxList else c ∈ l.items := by
    intro c
    rw [hperm.mem_iff, List.mem_cons]
    split_ifs with heq
    · exact iff_of_true (Or.inl heq) rfl
    · exact or_iff_right heq
  refine (h.move hl hx (fun other _ heq => by cases heq) (fun other hne heq => ?_) hlist honly
    (fun _ hc => hc) hmem ?_).number x
  · exact hne (Option.some.inj heq).symm
  · exact hlist.contained x (hperm.mem_iff.mpr List.mem_cons_self)

theorem initialise (h : Represents m s) (hlist : s.lists pxList = none)
    (hitem : s.container pxList = none) :
    Represents (vListInitialise pxList m) { s.set pxList ⟨[], pxList⟩ with
      value := Function.update s.value pxList portMaxDelay } := by
  have hne : ∀ {other k}, s.lists other = some k → ∀ c ∈ other :: k.items, c ≠ pxList := by
    rintro other k hk c hc rfl
    rcases List.mem_cons.mp hc with rfl | hc
    · cases hlist.symm.trans hk
    · cases hitem.symm.trans ((h.contained c other).mpr ⟨k, hk, hc⟩)
  refine ⟨fun other k hk => ?_, fun c other => (h.contained c other).trans ?_, h.container,
    fun other hother => ?_, ?_, fun c => ?_⟩
  · by_cases heq : other = pxList
    · subst heq
      have hnew : Function.update s.lists other (some ⟨[], other⟩) other = some k := hk
      rw [Function.update_self] at hnew
      exact Option.some.inj hnew ▸ isList_initialise m other
    · have hold : Function.update s.lists pxList (some ⟨[], pxList⟩) other = some k := hk
      rw [Function.update_of_ne heq] at hold
      refine (h.isList other k hold).congr (fun c hc => ?_) (fun _ _ => rfl)
        (Function.update_of_ne heq _ _) (Function.update_of_ne heq _ _)
        (Function.update_of_ne heq _ _)
      exact LinkHeap.join_of_ne (hne hold c hc) (hne hold c hc)
  · show _ ↔ ∃ l, Function.update s.lists pxList (some ⟨[], pxList⟩) other = some l ∧ c ∈ l.items
    by_cases heq : other = pxList
    · rw [heq, Function.update_self, hlist]
      simp
    · rw [Function.update_of_ne heq]
  · by_cases heq : other = pxList
    · exact heq ▸ hitem
    · have hold : (Function.update s.lists pxList (some ⟨[], pxList⟩) other).isSome := hother
      rw [Function.update_of_ne heq] at hold
      exact h.markers other hold
  · show Function.update m.xItemValue pxList portMaxDelay = _
    rw [h.value]
  · show Function.update m.xItemValue pxList portMaxDelay c ≤ portMaxDelay
    by_cases heq : c = pxList
    · rw [heq, Function.update_self]
    · rw [Function.update_of_ne heq]
      exact h.bounded c

theorem initialiseItem (h : Represents m s) (hlist : s.lists x = none)
    (hitem : (s.container x).join = none) :
    Represents (vListInitialiseItem x m) (s.move x none) := by
  have hout : ∀ other, s.container x ≠ some (some other) := by
    intro other heq
    rw [heq] at hitem
    cases hitem
  refine ⟨fun other k hk => (h.isList other k hk).congr (fun _ _ => rfl) (fun c hc => ?_) rfl rfl
    rfl, fun c other => Iff.trans ?_ (h.contained c other), fun c o hc => ?_,
    fun other hother => ?_, h.value, h.bounded⟩
  · refine Function.update_of_ne ?_ _ _
    rintro rfl
    exact hout other ((h.contained c other).mpr ⟨k, hk, hc⟩)
  · show Function.update s.container x (some none) c = _ ↔ _
    by_cases heq : c = x
    · rw [heq, Function.update_self]
      exact iff_of_false (fun hsome => by cases hsome) (hout other)
    · rw [Function.update_of_ne heq]
  · have hnew : Function.update s.container x (some none) c = some o := hc
    show Function.update m.pvContainer x none c = o
    by_cases heq : c = x
    · rw [heq, Function.update_self] at hnew ⊢
      exact Option.some.inj hnew
    · rw [Function.update_of_ne heq] at hnew ⊢
      exact h.container c o hnew
  · refine (Function.update_of_ne ?_ _ _).trans (h.markers other hother)
    rintro rfl
    cases Option.isSome_iff_ne_none.mp hother hlist

theorem setValue (h : Represents m s) {xValue : ℕ} (hlist : s.lists x = none)
    (hvalue : xValue ≤ portMaxDelay) :
    Represents (listSetListItemValue x xValue m)
      { s with value := Function.update s.value x xValue } := by
  refine ⟨fun other k hk => (h.isList other k hk).congr (fun _ _ => rfl) (fun _ _ => rfl) rfl rfl
    (Function.update_of_ne ?_ _ _), h.contained, h.container, h.markers,
    ?_, fun c => ?_⟩
  · rintro rfl
    cases hlist.symm.trans hk
  · show Function.update m.xItemValue x xValue = _
    rw [h.value]
  · show Function.update m.xItemValue x xValue c ≤ portMaxDelay
    by_cases heq : c = x
    · rwa [heq, Function.update_self]
    · rw [Function.update_of_ne heq]
      exact h.bounded c

end Represents

/-! ## Refinement -/

/-- The memory holds the lists, and the answers are the same. -/
def Refines (s : Answered (Lists α) α) (m : Answered (ListMemory α) α) : Prop :=
  Represents m.state s.state ∧ m.answers = s.answers

theorem step_refines {s : Answered (Lists α) α} {m : Answered (ListMemory α) α}
    {event : ListEvent α} (h : Refines s m) (hallowed : Lists.Allowed s event) :
    ∃ s' m', Lists.step s event = some s' ∧ ListMemory.step m event = some m' ∧
      Refines s' m' := by
  obtain ⟨hrep, hanswers⟩ := h
  cases event with
  | initialise pxList =>
      exact ⟨_, _, rfl, rfl, hrep.initialise hallowed.1 hallowed.2, hanswers⟩
  | initialiseItem x =>
      exact ⟨_, _, rfl, rfl, hrep.initialiseItem hallowed.1 hallowed.2, hanswers⟩
  | setValue x xValue =>
      exact ⟨_, _, rfl, rfl, hrep.setValue hallowed.1 hallowed.2, hanswers⟩
  | insertEnd pxList x =>
      obtain ⟨hlist, hx⟩ := hallowed
      obtain ⟨l, hl⟩ := Option.isSome_iff_exists.mp hlist
      obtain ⟨m', hrun, hlist', honly⟩ :=
        (hrep.isList pxList l hl).insertEnd (hrep.apart_free hl hx)
      refine ⟨⟨_, s.answers⟩, ⟨m', m.answers⟩, ?_, ?_,
        hrep.insertItem hl hx hlist' honly (l.insertEnd_perm x), hanswers⟩
      · rw [Lists.step, hl]
        rfl
      · rw [ListMemory.step, hrun]
        rfl
  | insert pxList x =>
      obtain ⟨hlist, hx⟩ := hallowed
      obtain ⟨l, hl⟩ := Option.isSome_iff_exists.mp hlist
      obtain ⟨m', hrun, hlist', honly⟩ :=
        (hrep.isList pxList l hl).insert (hrep.apart_free hl hx) hrep.bounded
      rw [hrep.value] at hlist'
      refine ⟨⟨_, s.answers⟩, ⟨m', m.answers⟩, ?_, ?_,
        hrep.insertItem hl hx hlist' honly (l.insert_perm s.state.value x), hanswers⟩
      · rw [Lists.step, hl]
        rfl
      · rw [ListMemory.step, hrun]
        rfl
  -- The list that the item is removed from is the one that it is in.
  | remove x =>
      obtain ⟨pxList, hpx⟩ := Option.isSome_iff_exists.mp hallowed
      have hx : s.state.container x = some (some pxList) := Option.join_eq_some_iff.mp hpx
      obtain ⟨l, hl, hmem⟩ := (hrep.contained x pxList).mp hx
      have hisList := hrep.isList pxList l hl
      obtain ⟨m', hrun, hlist', honly, hout⟩ := hisList.remove hmem
      have hnodup := (List.nodup_cons.mp hisList.ring.nodup).2
      have hmem' : ∀ c, c ∈ (l.remove pxList x).items ↔
          if c = x then none = some pxList else c ∈ l.items := by
        intro c
        show c ∈ l.items.erase x ↔ _
        rw [hnodup.mem_erase_iff]
        split_ifs with heq
        · exact iff_of_false (fun hne => hne.1 heq) (fun hnone => by cases hnone)
        · exact and_iff_right heq
      refine ⟨⟨_, .remaining (l.items.length - 1) :: s.answers⟩,
        ⟨m', .remaining (l.items.length - 1) :: m.answers⟩, ?_, ?_,
        hrep.move hl hx (fun other hne heq => ?_) (fun other _ heq => by cases heq) hlist' honly
          (fun c hc => List.mem_cons_of_mem x hc) hmem' hout, congrArg (List.cons _) hanswers⟩
      · rw [Lists.step, hpx]
        simp only [Option.bind_eq_bind, Option.bind_some, hl]
        rfl
      · rw [ListMemory.step, hrun]
        rfl
      · exact hne (Option.some.inj heq).symm
  | getNext pxList =>
      obtain ⟨l, hl, hitems⟩ := hallowed
      obtain ⟨m', c, hrun, hhead, hlist', honly⟩ := (hrep.isList pxList l hl).getNext hitems
      refine ⟨⟨_, .entry c :: s.answers⟩, ⟨m', .entry c :: m.answers⟩, ?_, ?_,
        hrep.walk hl hlist' honly rfl, congrArg (List.cons _) hanswers⟩
      · rw [Lists.step, show s.state.lists pxList = some l from hl]
        simp only [Option.bind_eq_bind, Option.bind_some, hhead]
        rfl
      · rw [ListMemory.step, hrun]
        rfl

/-- Whatever the callers do within the contract, every call returns, and the memory holds the lists
that the calls stand for and hands back their answers. -/
theorem lists_refined (m : ListMemory α) (events : List (ListEvent α))
    (hbounded : ∀ c, m.xItemValue c ≤ portMaxDelay)
    (hmet : Met Lists.step Lists.Allowed ⟨Lists.start m.xItemValue, []⟩ events) :
    ∃ s m', run Lists.step events ⟨Lists.start m.xItemValue, []⟩ = some s ∧
      run ListMemory.step events ⟨m, []⟩ = some m' ∧
      (∀ pxList l, s.state.lists pxList = some l → IsList m'.state pxList l) ∧
      (∀ c o, s.state.container c = some o → m'.state.pvContainer c = o) ∧
      m'.answers = s.answers := by
  have hstart : Refines ⟨Lists.start m.xItemValue, []⟩ ⟨m, []⟩ :=
    ⟨Represents.start m hbounded, rfl⟩
  obtain ⟨s, m', hrun, hrun', hrep, hanswers⟩ :=
    simulate_of_met Refines hstart hmet step_refines
  exact ⟨s, m', hrun, hrun', hrep.isList, hrep.container, hanswers⟩

/-- Nothing is initialised. -/
def benchMemory : ListMemory ℕ := ⟨fun _ => ⟨none, none⟩, fun _ => 0, fun _ => none, fun _ => none,
  fun _ => 0⟩

/-- A list with three items that is walked along while one of them leaves and comes back. -/
def benchWalk : List (ListEvent ℕ) :=
  [.initialise 10, .initialiseItem 1, .initialiseItem 2, .initialiseItem 3, .insertEnd 10 1,
    .insertEnd 10 2, .getNext 10, .insertEnd 10 3, .remove 1, .getNext 10, .insertEnd 10 1]

theorem lists_refined_bench : ∃ m', run ListMemory.step benchWalk ⟨benchMemory, []⟩ = some m' ∧
    m'.answers = [.entry 2, .remaining 2, .entry 1] := by
  obtain ⟨s, m', hrun, hrun', -, -, hanswers⟩ :=
    lists_refined benchMemory benchWalk (fun _ => Nat.zero_le _) (by decide)
  have habstract : (run Lists.step benchWalk ⟨Lists.start benchMemory.xItemValue, []⟩).map
      Answered.answers = some [.entry 2, .remaining 2, .entry 1] := by decide
  rw [hrun] at habstract
  exact ⟨m', hrun', hanswers.trans (Option.some.inj habstract)⟩

end TivaAws.Rtos.Kernel
