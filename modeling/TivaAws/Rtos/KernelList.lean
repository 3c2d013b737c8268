import TivaAws.Foundation.LinkedRing
import Mathlib.Algebra.Group.Nat.Defs
import Mathlib.Data.List.TakeWhile

/-!
# Lists of the kernel

The functions of `list.c` and the items they put in order: a list is a ring from its end marker
through its items, and `pxIndex` walks along it. `vListInsertEnd`, `vListInsert`, `uxListRemove` and
`listGET_OWNER_OF_NEXT_ENTRY` are operations on the items and the walk.
-/

namespace TivaAws.Rtos.Kernel

open LinkHeap

variable {α : Type*} [DecidableEq α]

/-! ## Model -/

/-- `portMAX_DELAY`. -/
def portMaxDelay : ℕ := 2 ^ 32 - 1

/-- The list items and the lists at every address. A list is at the address of its `xListEnd`. -/
structure ListMemory (α : Type*) where
  links : LinkHeap α
  xItemValue : α → ℕ
  pvContainer : α → Option α
  pxIndex : α → Option α
  uxNumberOfItems : α → ℕ

/-- `vListInitialise`. -/
def vListInitialise (pxList : α) (m : ListMemory α) : ListMemory α where
  links := (m.links.setNext pxList (some pxList)).setPrev pxList (some pxList)
  xItemValue := Function.update m.xItemValue pxList portMaxDelay
  pvContainer := m.pvContainer
  pxIndex := Function.update m.pxIndex pxList (some pxList)
  uxNumberOfItems := Function.update m.uxNumberOfItems pxList 0

/-- `vListInitialiseItem`. -/
def vListInitialiseItem (pxItem : α) (m : ListMemory α) : ListMemory α :=
  { m with pvContainer := Function.update m.pvContainer pxItem none }

/-- `listSET_LIST_ITEM_VALUE`. -/
def listSetListItemValue (pxListItem : α) (xValue : ℕ) (m : ListMemory α) : ListMemory α :=
  { m with xItemValue := Function.update m.xItemValue pxListItem xValue }

/-- What the two insertions do to the list that the item is in now. -/
def countItem (pxList pxNewListItem : α) (links : LinkHeap α) (m : ListMemory α) : ListMemory α :=
  { m with
    links := links
    pvContainer := Function.update m.pvContainer pxNewListItem (some pxList)
    uxNumberOfItems := Function.update m.uxNumberOfItems pxList (m.uxNumberOfItems pxList + 1) }

/-- `vListInsertEnd`; `none` if `NULL` is followed. -/
def vListInsertEnd (pxList pxNewListItem : α) (m : ListMemory α) : Option (ListMemory α) := do
  let pxIndex ← m.pxIndex pxList
  let links := m.links.setNext pxNewListItem (some pxIndex)
  let links := links.setPrev pxNewListItem (links pxIndex).prev
  let pxPrevious ← (links pxIndex).prev
  let links := links.setNext pxPrevious (some pxNewListItem)
  let links := links.setPrev pxIndex (some pxNewListItem)
  pure (countItem pxList pxNewListItem links m)

/-- The `for` loop of `vListInsert`; `none` also if its rounds do not end. -/
def insertAfterItem (xValueOfInsertion : ℕ) (m : ListMemory α) : ℕ → α → Option α
  | 0, _ => none
  | rounds + 1, pxIterator => do
      let pxNext ← (m.links pxIterator).next
      if m.xItemValue pxNext ≤ xValueOfInsertion then
        insertAfterItem xValueOfInsertion m rounds pxNext
      else pure pxIterator

/-- The item behind which `vListInsert` inserts. The loop takes a round for each item at most. -/
def insertionPoint (pxList pxNewListItem : α) (m : ListMemory α) : Option α :=
  let xValueOfInsertion := m.xItemValue pxNewListItem
  if xValueOfInsertion = portMaxDelay then (m.links pxList).prev
  else insertAfterItem xValueOfInsertion m (m.uxNumberOfItems pxList + 1) pxList

/-- `vListInsert`. -/
def vListInsert (pxList pxNewListItem : α) (m : ListMemory α) : Option (ListMemory α) := do
  let pxIterator ← insertionPoint pxList pxNewListItem m
  let links := m.links.setNext pxNewListItem (m.links pxIterator).next
  let pxNext ← (links pxNewListItem).next
  let links := links.setPrev pxNext (some pxNewListItem)
  let links := links.setPrev pxNewListItem (some pxIterator)
  let links := links.setNext pxIterator (some pxNewListItem)
  pure (countItem pxList pxNewListItem links m)

/-- `uxListRemove`: the number of items that remain. -/
def uxListRemove (pxItemToRemove : α) (m : ListMemory α) : Option (ℕ × ListMemory α) := do
  let pxList ← m.pvContainer pxItemToRemove
  let pxNext ← (m.links pxItemToRemove).next
  let links := m.links.setPrev pxNext (m.links pxItemToRemove).prev
  let pxPrevious ← (links pxItemToRemove).prev
  let links := links.setNext pxPrevious (links pxItemToRemove).next
  let uxNumberOfItems := m.uxNumberOfItems pxList - 1
  pure (uxNumberOfItems,
    { m with
      links := links
      pxIndex :=
        if m.pxIndex pxList = some pxItemToRemove then
          Function.update m.pxIndex pxList (links pxItemToRemove).prev
        else m.pxIndex
      pvContainer := Function.update m.pvContainer pxItemToRemove none
      uxNumberOfItems := Function.update m.uxNumberOfItems pxList uxNumberOfItems })

/-- `listGET_OWNER_OF_NEXT_ENTRY`: the item whose owner is assigned. -/
def listGetNextEntry (pxList : α) (m : ListMemory α) : Option (α × ListMemory α) := do
  let pxIndex ← m.pxIndex pxList
  let pxIndex ← (m.links pxIndex).next
  let pxIndex ← if pxIndex = pxList then (m.links pxIndex).next else some pxIndex
  pure (pxIndex, { m with pxIndex := Function.update m.pxIndex pxList (some pxIndex) })

/-- `listLIST_IS_EMPTY`. -/
def listListIsEmpty (pxList : α) (m : ListMemory α) : Bool := m.uxNumberOfItems pxList = 0

/-- `listGET_HEAD_ENTRY`. -/
def listGetHeadEntry (pxList : α) (m : ListMemory α) : Option α := (m.links pxList).next

/-! ## Items in order -/

/-- The items of a list in order, and where the walk is: at an item or, before the first one, at the
end marker. -/
structure Items (α : Type*) where
  items : List α
  index : α
  deriving DecidableEq, Repr

namespace Items

/-- An item is put where the walk comes last. -/
def insertEnd (x : α) (l : Items α) : Items α :=
  { l with
    items := l.items.takeWhile (· ≠ l.index) ++ x :: l.items.dropWhile (· ≠ l.index) }

/-- An item is put behind those with values up to its own. -/
def insert (value : α → ℕ) (x : α) (l : Items α) : Items α :=
  { l with
    items := l.items.takeWhile (value · ≤ value x) ++ x :: l.items.dropWhile (value · ≤ value x) }

/-- An item is taken out; a walk that is at it steps back. -/
def remove (pxList x : α) (l : Items α) : Items α where
  items := l.items.erase x
  index :=
    if l.index = x then ((pxList :: l.items.takeWhile (· ≠ x)).getLast?).getD pxList else l.index

/-- The items in the order in which the walk comes to them: behind the walk to the end, and from the
start on. -/
def turns (l : Items α) : List α :=
  (l.items.dropWhile (· ≠ l.index)).tail ++ l.items.takeWhile (· ≠ l.index) ++
    (l.items.dropWhile (· ≠ l.index)).take 1

/-- The walk comes to the next item. -/
def next (l : Items α) : Items α := { l with index := l.turns.head?.getD l.index }

theorem insertEnd_perm (x : α) (l : Items α) : (l.insertEnd x).items.Perm (x :: l.items) := by
  have hparts := List.takeWhile_append_dropWhile (p := (· ≠ l.index)) (l := l.items)
  refine List.perm_middle.trans (List.Perm.cons x ?_)
  rw [hparts]

omit [DecidableEq α] in
theorem insert_perm (value : α → ℕ) (x : α) (l : Items α) :
    (l.insert value x).items.Perm (x :: l.items) := by
  have hparts := List.takeWhile_append_dropWhile (p := (value · ≤ value x)) (l := l.items)
  refine List.perm_middle.trans (List.Perm.cons x ?_)
  rw [hparts]

end Items

/-! ## One list in memory -/

/-- The memory holds a list with the given items and walk. -/
structure IsList (m : ListMemory α) (pxList : α) (l : Items α) : Prop where
  ring : IsRing m.links pxList l.items
  index : m.pxIndex pxList = some l.index
  walk : l.index ∈ pxList :: l.items
  count : m.uxNumberOfItems pxList = l.items.length
  contained : ∀ c ∈ l.items, m.pvContainer c = some pxList
  marker : m.xItemValue pxList = portMaxDelay

/-- Only the given cells and the given list change. -/
structure Only (cells : List α) (pxList : α) (m m' : ListMemory α) : Prop where
  links : ∀ c ∉ cells, m'.links c = m.links c
  container : ∀ c ∉ cells, m'.pvContainer c = m.pvContainer c
  index : ∀ other ≠ pxList, m'.pxIndex other = m.pxIndex other
  count : ∀ other ≠ pxList, m'.uxNumberOfItems other = m.uxNumberOfItems other
  values : m'.xItemValue = m.xItemValue

variable {m m' : ListMemory α} {l : Items α} {pxList other x prev next : α} {cells : List α}
  {before after : List α}

omit [DecidableEq α] in
theorem IsList.congr (h : IsList m other l)
    (hlinks : ∀ c ∈ other :: l.items, m'.links c = m.links c)
    (hcontainer : ∀ c ∈ l.items, m'.pvContainer c = m.pvContainer c)
    (hindex : m'.pxIndex other = m.pxIndex other)
    (hcount : m'.uxNumberOfItems other = m.uxNumberOfItems other)
    (hvalue : m'.xItemValue other = m.xItemValue other) : IsList m' other l where
  ring := h.ring.frame hlinks
  index := hindex.trans h.index
  walk := h.walk
  count := hcount.trans h.count
  contained c hc := (hcontainer c hc).trans (h.contained c hc)
  marker := hvalue.trans h.marker

omit [DecidableEq α] in
theorem IsList.frame (h : IsList m other l) (honly : Only cells pxList m m')
    (hne : other ≠ pxList) (happart : ∀ c ∈ other :: l.items, c ∉ cells) : IsList m' other l :=
  h.congr (fun c hc => honly.links c (happart c hc))
    (fun c hc => honly.container c (happart c (List.mem_cons_of_mem other hc)))
    (honly.index other hne) (honly.count other hne) (congrFun honly.values other)

/-- `vListInitialise` makes a list without items. -/
theorem isList_initialise (m : ListMemory α) (pxList : α) :
    IsList (vListInitialise pxList m) pxList ⟨[], pxList⟩ where
  ring := IsRing.init m.links pxList
  index := Function.update_self _ _ _
  walk := List.mem_cons_self
  count := Function.update_self _ _ _
  contained := List.forall_mem_nil _
  marker := Function.update_self _ _ _

omit [DecidableEq α] in
/-- The last of a head and further cells. -/
theorem exists_last (head : α) (cells : List α) : ∃ last, (head :: cells).getLast? = some last :=
  Option.isSome_iff_exists.mp (List.getLast?_isSome.mpr (List.cons_ne_nil head cells))

omit [DecidableEq α] in
/-- The first of some cells and a last one. -/
theorem exists_first (cells : List α) (last : α) :
    ∃ first, (cells ++ [last]).head? = some first := by
  cases cells with
  | nil => exact ⟨last, rfl⟩
  | cons first cells => exact ⟨first, rfl⟩

/-- What both insertions write, as joins. -/
theorem insert_end_links (links : LinkHeap α) (hne : x ≠ next) :
    (((links.setNext x (some next)).setPrev x (some prev)).setNext prev (some x)).setPrev next
      (some x) = (links.join x next).join prev x := by
  funext c
  refine Link.ext ?_ ?_
  · simp only [setPrev_prev, setNext_prev, join_prev]
    by_cases hcx : c = x
    · simp only [hcx, hne, if_true, if_false]
    · simp only [hcx, if_false]
  · simp only [setPrev_next, setNext_next, join_next]

theorem insert_links (links : LinkHeap α) :
    (((links.setNext x (some next)).setPrev next (some x)).setPrev x (some prev)).setNext prev
      (some x) = (links.join x next).join prev x := by
  rw [setPrev_setNext]
  rfl

/-- An item is linked between two parts of a list, and counted. -/
theorem IsList.countItem (h : IsList m pxList l) (hitems : l.items = before ++ after)
    (hx : x ∉ pxList :: l.items) (hprev : (pxList :: before).getLast? = some prev)
    (hnext : (after ++ [pxList]).head? = some next) :
    IsList (countItem pxList x ((m.links.join x next).join prev x) m) pxList
        { l with items := before ++ x :: after } ∧
      Only (x :: pxList :: l.items) pxList m
        (Kernel.countItem pxList x ((m.links.join x next).join prev x) m) := by
  have hring := h.ring
  rw [hitems] at hring hx
  have hprev_mem : prev ∈ pxList :: (before ++ after) := by
    rw [← List.cons_append]
    exact List.mem_append_left after (List.mem_of_getLast? hprev)
  have hnext_mem : next ∈ pxList :: (before ++ after) := by
    rcases List.mem_append.mp (List.mem_of_head? hnext) with hin | hin
    · exact List.mem_cons_of_mem pxList (List.mem_append_right before hin)
    · exact List.mem_singleton.mp hin ▸ List.mem_cons_self
  have hwalk : ∀ c ∈ pxList :: (before ++ after), c ∈ pxList :: (before ++ x :: after) := by
    intro c hc
    simp only [List.mem_cons, List.mem_append] at hc ⊢
    tauto
  constructor
  · refine ⟨hring.insert_between hx hprev hnext, h.index, hwalk _ (hitems ▸ h.walk), ?_,
      fun c hc => ?_, h.marker⟩
    · have hcount := h.count
      rw [hitems] at hcount
      show Function.update m.uxNumberOfItems pxList (m.uxNumberOfItems pxList + 1) pxList = _
      rw [Function.update_self, hcount]
      simp only [List.length_append, List.length_cons]
      omega
    · show Function.update m.pvContainer x (some pxList) c = some pxList
      by_cases hcx : c = x
      · rw [hcx, Function.update_self]
      · rw [Function.update_of_ne hcx]
        refine h.contained c ?_
        rw [hitems]
        simp only [List.mem_cons, List.mem_append] at hc ⊢
        tauto
  · rw [hitems]
    refine ⟨fun c hc => ?_, fun c hc => ?_, fun _ _ => rfl, fun other hne => ?_, rfl⟩
    · have hcx : c ≠ x := fun heq => hc (heq ▸ List.mem_cons_self)
      have hcprev : c ≠ prev := fun heq => hc (heq ▸ List.mem_cons_of_mem x hprev_mem)
      have hcnext : c ≠ next := fun heq => hc (heq ▸ List.mem_cons_of_mem x hnext_mem)
      exact (join_of_ne hcprev hcx).trans (join_of_ne hcx hcnext)
    · have hcx : c ≠ x := fun heq => hc (heq ▸ List.mem_cons_self)
      exact Function.update_of_ne hcx _ _
    · exact Function.update_of_ne hne _ _

/-- A list is cut at an item. -/
theorem cut_eq (after : List α) (hx : x ∉ before) :
    (before ++ x :: after).takeWhile (· ≠ x) = before ∧
      (before ++ x :: after).dropWhile (· ≠ x) = x :: after := by
  have hall : ∀ c ∈ before, decide (c ≠ x) = true := fun c hc =>
    decide_eq_true (ne_of_mem_of_not_mem hc hx)
  rw [List.takeWhile_append_of_pos hall, List.dropWhile_append_of_pos hall,
    List.takeWhile_cons_of_neg (by simp), List.dropWhile_cons_of_neg (by simp), List.append_nil]
  exact ⟨rfl, rfl⟩

theorem cut_at (hx : x ∈ cells) : ∃ before after, cells = before ++ x :: after ∧ x ∉ before ∧
    cells.takeWhile (· ≠ x) = before ∧ cells.dropWhile (· ≠ x) = x :: after := by
  obtain ⟨before, after, rfl, hbefore⟩ := List.eq_append_cons_of_mem hx
  exact ⟨before, after, rfl, hbefore, cut_eq after hbefore⟩

/-- A list is not cut at an item that it does not have. -/
theorem cut_nowhere (hx : x ∉ cells) :
    cells.takeWhile (· ≠ x) = cells ∧ cells.dropWhile (· ≠ x) = [] := by
  have hall : ∀ c ∈ cells, decide (c ≠ x) = true := fun c hc =>
    decide_eq_true (ne_of_mem_of_not_mem hc hx)
  exact ⟨List.takeWhile_eq_self_iff.mpr hall, List.dropWhile_eq_nil_iff.mpr hall⟩

/-- The walk is at the first of the items that are not before it, or at the end marker. -/
theorem walk_first (hwalk : l.index ∈ pxList :: l.items) :
    (l.items.dropWhile (· ≠ l.index) ++ [pxList]).head? = some l.index := by
  by_cases hmem : l.index ∈ l.items
  · obtain ⟨before, after, -, -, -, hdrop⟩ := cut_at hmem
    rw [hdrop]
    rfl
  · rw [(cut_nowhere hmem).2, (List.mem_cons.mp hwalk).resolve_right hmem]
    rfl

/-- `vListInsertEnd`. -/
theorem IsList.insertEnd (h : IsList m pxList l) (hx : x ∉ pxList :: l.items) :
    ∃ m', vListInsertEnd pxList x m = some m' ∧ IsList m' pxList (l.insertEnd x) ∧
      Only (x :: pxList :: l.items) pxList m m' := by
  have hitems : l.items =
      l.items.takeWhile (· ≠ l.index) ++ l.items.dropWhile (· ≠ l.index) :=
    List.takeWhile_append_dropWhile.symm
  have hnext := walk_first h.walk
  obtain ⟨prev, hprev⟩ := exists_last pxList (l.items.takeWhile (· ≠ l.index))
  have hring := h.ring
  rw [hitems] at hring
  have hlinked := hring.between hprev hnext
  have hne : x ≠ l.index := fun heq => hx (heq ▸ h.walk)
  obtain ⟨hlist, honly⟩ := h.countItem hitems hx hprev hnext
  refine ⟨_, ?_, hlist, honly⟩
  unfold vListInsertEnd
  rw [h.index]
  simp only [Option.bind_eq_bind, Option.bind_some, setNext_prev, setPrev_prev, hlinked.2,
    if_neg (Ne.symm hne)]
  rw [insert_end_links m.links hne]
  rfl

omit [DecidableEq α] in
/-- The loop of `vListInsert` passes the items with values up to the one that is inserted, by
induction on the items that remain. -/
theorem insertAfterItem_spec {v rounds : ℕ} {front rest : List α} {pxIterator : α}
    (hring : IsRing m.links pxList (front ++ rest))
    (hlast : (pxList :: front).getLast? = some pxIterator)
    (hmarker : m.xItemValue pxList = portMaxDelay) (hv : v < portMaxDelay)
    (hrounds : rest.length < rounds) :
    insertAfterItem v m rounds pxIterator =
      (pxList :: (front ++ rest.takeWhile (m.xItemValue · ≤ v))).getLast? := by
  induction rest generalizing front pxIterator rounds with
  | nil =>
      obtain ⟨rounds, rfl⟩ := Nat.exists_eq_succ_of_ne_zero (Nat.ne_of_gt hrounds)
      have hback : ([] ++ [pxList]).head? = some pxList := rfl
      have hnext := (hring.between hlast hback).1
      have hstop : ¬ m.xItemValue pxList ≤ v := by omega
      rw [insertAfterItem, hnext]
      simp only [Option.bind_eq_bind, Option.bind_some, if_neg hstop]
      rw [List.takeWhile_nil, List.append_nil, hlast]
      rfl
  | cons c rest ih =>
      obtain ⟨rounds, rfl⟩ := Nat.exists_eq_succ_of_ne_zero (Nat.ne_zero_of_lt hrounds)
      have hback : (c :: rest ++ [pxList]).head? = some c := rfl
      have hnext := (hring.between hlast hback).1
      rw [insertAfterItem, hnext]
      simp only [Option.bind_eq_bind, Option.bind_some]
      by_cases hle : m.xItemValue c ≤ v
      · rw [if_pos hle, List.takeWhile_cons_of_pos (by simp [hle])]
        have hring' : IsRing m.links pxList ((front ++ [c]) ++ rest) := by
          rw [List.append_assoc]
          exact hring
        have hlast' : (pxList :: (front ++ [c])).getLast? = some c := by
          rw [← List.cons_append, List.getLast?_concat]
        rw [ih hring' hlast' (Nat.lt_of_succ_lt_succ hrounds), List.append_assoc]
        rfl
      · rw [if_neg hle, List.takeWhile_cons_of_neg (by simp [hle]), List.append_nil, hlast]
        rfl

/-- `vListInsert`. -/
theorem IsList.insert (h : IsList m pxList l) (hx : x ∉ pxList :: l.items)
    (hvalues : ∀ c, m.xItemValue c ≤ portMaxDelay) :
    ∃ m', vListInsert pxList x m = some m' ∧ IsList m' pxList (l.insert m.xItemValue x) ∧
      Only (x :: pxList :: l.items) pxList m m' := by
  have hitems : l.items = l.items.takeWhile (m.xItemValue · ≤ m.xItemValue x) ++
      l.items.dropWhile (m.xItemValue · ≤ m.xItemValue x) :=
    List.takeWhile_append_dropWhile.symm
  obtain ⟨prev, hprev⟩ :=
    exists_last pxList (l.items.takeWhile (m.xItemValue · ≤ m.xItemValue x))
  obtain ⟨next, hnext⟩ :=
    exists_first (l.items.dropWhile (m.xItemValue · ≤ m.xItemValue x)) pxList
  -- The item before the insertion is found in both branches.
  have hfound : insertionPoint pxList x m = some prev := by
    unfold insertionPoint
    dsimp only
    split_ifs with hmax
    · have hall : l.items.takeWhile (m.xItemValue · ≤ m.xItemValue x) = l.items :=
        List.takeWhile_eq_self_iff.mpr fun c _ => decide_eq_true (hmax ▸ hvalues c)
      rw [h.ring.prev_head, ← hall, hprev]
    · have hlt : m.xItemValue x < portMaxDelay := Nat.lt_of_le_of_ne (hvalues x) hmax
      have hrounds : l.items.length < m.uxNumberOfItems pxList + 1 := by
        rw [h.count]
        exact Nat.lt_succ_self _
      have hfront : [pxList].getLast? = some pxList := rfl
      exact (insertAfterItem_spec h.ring hfront h.marker hlt hrounds).trans hprev
  have hring := h.ring
  rw [hitems] at hring
  have hlinked := hring.between hprev hnext
  obtain ⟨hlist, honly⟩ := h.countItem hitems hx hprev hnext
  refine ⟨_, ?_, hlist, honly⟩
  unfold vListInsert
  simp only [hfound, Option.bind_eq_bind, Option.bind_some, hlinked.1, setNext_next, if_true]
  rw [insert_links m.links]
  rfl

/-- The walk of a list after an item is taken out is in the list. -/
theorem walk_remove (hwalk : l.index ∈ pxList :: l.items) (hnodup : (pxList :: l.items).Nodup)
    (hx : x ∈ l.items) :
    (l.remove pxList x).index ∈ pxList :: (l.remove pxList x).items := by
  obtain ⟨before, after, hitems, hbefore, htake, -⟩ := cut_at hx
  have hnodup_items := (List.nodup_cons.mp hnodup).2
  unfold Items.remove
  dsimp only
  split_ifs with hindex
  · obtain ⟨prev, hprev⟩ := exists_last pxList before
    rw [htake, hprev, Option.getD_some]
    rcases List.mem_cons.mp (List.mem_of_getLast? hprev) with rfl | hmem
    · exact List.mem_cons_self
    · refine List.mem_cons_of_mem pxList ?_
      rw [hitems, List.erase_append_right _ hbefore, List.erase_cons_head]
      exact List.mem_append_left after hmem
  · rcases List.mem_cons.mp hwalk with heq | hmem
    · exact heq ▸ List.mem_cons_self
    · exact List.mem_cons_of_mem pxList ((List.mem_erase_of_ne hindex).mpr hmem)

/-- `uxListRemove`. -/
theorem IsList.remove (h : IsList m pxList l) (hx : x ∈ l.items) :
    ∃ m', uxListRemove x m = some (l.items.length - 1, m') ∧
      IsList m' pxList (l.remove pxList x) ∧ Only (pxList :: l.items) pxList m m' ∧
      m'.pvContainer x = none := by
  obtain ⟨before, after, hitems, hbefore, htake, -⟩ := cut_at hx
  have hring := h.ring
  rw [hitems] at hring
  obtain ⟨prev, next, hprev, hnext, hprev_mem, hnext_mem, hout⟩ := hring.remove
  obtain ⟨hhead, hnodup⟩ := List.nodup_cons.mp h.ring.nodup
  have hxnext : x ≠ next := by
    rintro rfl
    rcases List.mem_append.mp hnext_mem with hin | hin
    · rw [hitems] at hnodup
      exact (List.nodup_cons.mp (List.nodup_append'.mp hnodup).2.1).1 hin
    · exact hhead (List.mem_singleton.mp hin ▸ hx)
  have hxprev : x ≠ prev := by
    rintro rfl
    rcases List.mem_cons.mp hprev_mem with rfl | hin
    · exact hhead hx
    · exact hbefore hin
  have hwalk := walk_remove (x := x) h.walk h.ring.nodup hx
  have herase : l.items.erase x = before ++ after := by
    rw [hitems, List.erase_append_right _ hbefore, List.erase_cons_head]
  have hmem_cells : ∀ c ∈ pxList :: (before ++ after), c ∈ pxList :: l.items := by
    intro c hc
    rw [hitems]
    simp only [List.mem_cons, List.mem_append] at hc ⊢
    tauto
  have hprev_cells : prev ∈ pxList :: l.items := hmem_cells prev (by
    rw [← List.cons_append]
    exact List.mem_append_left after hprev_mem)
  have hnext_cells : next ∈ pxList :: l.items := by
    rcases List.mem_append.mp hnext_mem with hin | hin
    · exact hmem_cells next (List.mem_cons_of_mem pxList (List.mem_append_right before hin))
    · exact List.mem_singleton.mp hin ▸ List.mem_cons_self
  -- The link before the item is the one that the walk steps back to.
  have hlast : (pxList :: before).getLast? = some prev := by
    obtain ⟨last, hlast⟩ := exists_last pxList before
    have hback : (x :: after ++ [pxList]).head? = some x := rfl
    have hlinked := hring.between hlast hback
    rw [hlast, ← hprev, hlinked.2]
  have hrun : uxListRemove x m = some (l.items.length - 1,
      { m with
        links := m.links.join prev next
        pxIndex :=
          if m.pxIndex pxList = some x then Function.update m.pxIndex pxList (some prev)
          else m.pxIndex
        pvContainer := Function.update m.pvContainer x none
        uxNumberOfItems := Function.update m.uxNumberOfItems pxList (l.items.length - 1) }) := by
    unfold uxListRemove
    rw [h.contained x hx]
    simp only [Option.bind_eq_bind, Option.bind_some, hnext, setPrev_prev, if_neg hxnext, hprev,
      h.count, setPrev_next, setNext_prev, setPrev_setNext]
    rfl
  refine ⟨_, hrun, ⟨?_, ?_, hwalk, ?_, fun c hc => ?_, h.marker⟩, ⟨fun c hc => ?_, fun c hc => ?_,
    fun other hne => ?_, fun other hne => Function.update_of_ne hne _ _, rfl⟩,
    Function.update_self _ _ _⟩
  · show IsRing _ pxList (l.items.erase x)
    rw [herase]
    exact hout
  · show (if m.pxIndex pxList = some x then Function.update m.pxIndex pxList (some prev)
      else m.pxIndex) pxList = _
    unfold Items.remove
    rw [h.index, htake, hlast]
    by_cases hindex : l.index = x
    · rw [if_pos (congrArg some hindex), Function.update_self]
      exact congrArg some (if_pos hindex).symm
    · rw [if_neg fun heq => hindex (Option.some.inj heq), h.index]
      exact congrArg some (if_neg hindex).symm
  · show Function.update m.uxNumberOfItems pxList (l.items.length - 1) pxList =
      (l.items.erase x).length
    rw [Function.update_self, List.length_erase_of_mem hx]
  · have hcx : c ≠ x := (hnodup.mem_erase_iff.mp hc).1
    exact (Function.update_of_ne hcx _ _).trans (h.contained c (List.mem_of_mem_erase hc))
  · exact join_of_ne (fun heq => hc (heq ▸ hprev_cells)) fun heq => hc (heq ▸ hnext_cells)
  · have hcx : c ≠ x := fun heq => hc (heq ▸ List.mem_cons_of_mem pxList hx)
    exact Function.update_of_ne hcx _ _
  · show (if m.pxIndex pxList = some x then Function.update m.pxIndex pxList (some prev)
      else m.pxIndex) other = m.pxIndex other
    split_ifs
    · exact Function.update_of_ne hne _ _
    · rfl

/-! ## The walk -/

/-- The turns of a walk that is at an item. -/
theorem turns_at (hitems : l.items = before ++ l.index :: after) (hindex : l.index ∉ before) :
    l.turns = after ++ before ++ [l.index] := by
  obtain ⟨htake, hdrop⟩ := cut_eq after hindex
  unfold Items.turns
  rw [hitems, htake, hdrop]
  rfl

/-- The turns of a walk that is at the end marker. -/
theorem turns_start (hindex : l.index ∉ l.items) : l.turns = l.items := by
  obtain ⟨htake, hdrop⟩ := cut_nowhere hindex
  unfold Items.turns
  rw [htake, hdrop]
  exact List.append_nil _

/-- Every item has one turn. -/
theorem turns_perm (l : Items α) : l.turns.Perm l.items := by
  by_cases hmem : l.index ∈ l.items
  · obtain ⟨before, after, hitems, hbefore⟩ := List.eq_append_cons_of_mem hmem
    rw [turns_at hitems hbefore, hitems]
    calc
      (after ++ before ++ [l.index]).Perm (before ++ after ++ [l.index]) :=
        List.perm_append_comm.append_right [l.index]
      _ = before ++ (after ++ [l.index]) := List.append_assoc _ _ _
      (before ++ (after ++ [l.index])).Perm (before ++ l.index :: after) :=
        List.perm_append_comm.append_left before
  · rw [turns_start hmem]

/-- When the walk comes to an item, it is the last to have its turn again. -/
theorem turns_next {rest : List α} {c : α} (hnodup : l.items.Nodup) (hturns : l.turns = c :: rest) :
    l.next.turns = rest ++ [c] := by
  have hindex : l.next.index = c := by
    unfold Items.next
    rw [hturns]
    rfl
  -- The turns are known from the items before and behind the new place.
  have hplace : ∀ before after, l.items = before ++ c :: after →
      l.next.turns = after ++ before ++ [c] := by
    intro before after hitems
    rw [hitems] at hnodup
    have hbefore : c ∉ before := fun hmem =>
      List.disjoint_of_nodup_append hnodup hmem List.mem_cons_self
    rw [← hindex] at hitems hbefore ⊢
    exact turns_at hitems hbefore
  by_cases hmem : l.index ∈ l.items
  · obtain ⟨before, after, hitems, hbefore⟩ := List.eq_append_cons_of_mem hmem
    rw [turns_at hitems hbefore] at hturns
    cases after with
    | cons d after =>
        obtain ⟨rfl, hrest⟩ := List.cons.inj hturns
        rw [hplace (before ++ [l.index]) after (by rw [hitems, List.append_assoc]; rfl), ← hrest,
          ← List.append_assoc]
        rfl
    | nil =>
        cases before with
        | cons d before =>
            obtain ⟨rfl, rfl⟩ := List.cons.inj hturns
            rw [hplace [] (before ++ [l.index]) hitems, List.append_nil]
            rfl
        | nil =>
            obtain ⟨rfl, rfl⟩ := List.cons.inj hturns
            exact hplace [] [] hitems
  · rw [turns_start hmem] at hturns
    rw [hplace [] rest hturns, List.append_nil]

/-- An item that is put anywhere leaves the others their order. -/
theorem turns_insert {l' : Items α} (hitems : l.items = before ++ after)
    (hitems' : l'.items = before ++ x :: after) (hindex : l'.index = l.index) (hx : x ≠ l.index) :
    l.turns.Sublist l'.turns := by
  by_cases hbefore : l.index ∈ before
  · obtain ⟨front, back, hcut, hfront⟩ := List.eq_append_cons_of_mem hbefore
    rw [hcut, List.append_assoc] at hitems hitems'
    rw [← hindex] at hitems'
    rw [turns_at hitems hfront, turns_at hitems' (hindex ▸ hfront), hindex]
    exact ((List.Sublist.append_left (List.sublist_cons_self x after) back).append_right
      front).append_right [l.index]
  · by_cases hafter : l.index ∈ after
    · obtain ⟨front, back, hcut, hfront⟩ := List.eq_append_cons_of_mem hafter
      rw [hcut, ← List.append_assoc] at hitems
      rw [hcut, ← List.cons_append, ← List.append_assoc] at hitems'
      have hin : l.index ∉ before ++ x :: front := by
        simp only [List.mem_append, List.mem_cons, not_or]
        exact ⟨hbefore, Ne.symm hx, hfront⟩
      rw [← hindex] at hitems' hin
      rw [turns_at hitems fun hmem => (List.mem_append.mp hmem).elim hbefore hfront,
        turns_at hitems' hin, hindex]
      exact ((List.Sublist.append_left (List.sublist_cons_self x front) before).append_left
        back).append_right [l.index]
    · have hold : l.index ∉ l.items := by
        rw [hitems]
        exact fun hmem => (List.mem_append.mp hmem).elim hbefore hafter
      have hnew : l'.index ∉ l'.items := by
        rw [hindex, hitems']
        simp only [List.mem_append, List.mem_cons, not_or]
        exact ⟨hbefore, Ne.symm hx, hafter⟩
      rw [turns_start hold, turns_start hnew, hitems, hitems']
      exact List.Sublist.append_left (List.sublist_cons_self x after) before

/-- An item that is taken out leaves the others their order. -/
theorem turns_remove (hhead : pxList ∉ l.items) (hnodup : l.items.Nodup) (hx : x ∈ l.items) :
    (l.remove pxList x).turns = l.turns.erase x := by
  have hnodup_turns : l.turns.Nodup := (turns_perm l).nodup_iff.mpr hnodup
  by_cases hindex : l.index = x
  · subst hindex
    obtain ⟨before, after, hitems, hbefore, htake, -⟩ := cut_at hx
    have herase : l.items.erase l.index = before ++ after := by
      rw [hitems, List.erase_append_right _ hbefore, List.erase_cons_head]
    have hturns : l.turns.erase l.index = after ++ before := by
      rw [turns_at hitems hbefore] at hnodup_turns ⊢
      have hout := List.disjoint_of_nodup_append hnodup_turns
      rw [List.erase_append_right _ fun hmem => hout hmem (List.mem_singleton_self _),
        List.erase_cons_head, List.append_nil]
    rw [hturns]
    have hremoved : l.remove pxList l.index =
        ⟨before ++ after, ((pxList :: before).getLast?).getD pxList⟩ := by
      unfold Items.remove
      rw [herase, if_pos rfl, htake]
    rw [hremoved]
    rcases List.eq_nil_or_concat before with rfl | ⟨front, last, rfl⟩
    · have hstart : pxList ∉ [] ++ after := fun hmem => hhead (by
        rw [hitems]
        exact List.mem_cons_of_mem l.index hmem)
      rw [List.append_nil]
      exact turns_start hstart
    · have hlast : (pxList :: (front ++ [last])).getLast?.getD pxList = last := by
        rw [← List.cons_append, List.getLast?_concat]
        rfl
      have hfront : last ∉ front := by
        rw [hitems] at hnodup
        have hpart : (front ++ [last]).Nodup :=
          List.concat_eq_append ▸ (List.nodup_append'.mp hnodup).1
        exact fun hmem => List.disjoint_of_nodup_append hpart hmem (List.mem_singleton_self last)
      simp only [List.concat_eq_append, hlast]
      rw [← List.append_assoc]
      exact turns_at (List.append_assoc _ _ _) hfront
  · have hkept : (l.remove pxList x).index = l.index := if_neg hindex
    have hitems' : (l.remove pxList x).items = l.items.filter (· != x) := hnodup.erase_eq_filter x
    rw [hnodup_turns.erase_eq_filter x]
    by_cases hmem : l.index ∈ l.items
    · obtain ⟨before, after, hitems, hbefore⟩ := List.eq_append_cons_of_mem hmem
      rw [hitems, List.filter_append, List.filter_cons_of_pos (by simp [hindex]),
        ← hkept] at hitems'
      rw [turns_at hitems' (hkept ▸ fun hin => hbefore (List.mem_of_mem_filter hin)),
        turns_at hitems hbefore, hkept, List.filter_append, List.filter_append]
      simp [hindex]
    · have hout : (l.remove pxList x).index ∉ (l.remove pxList x).items := by
        rw [hkept, hitems']
        exact fun hin => hmem (List.mem_of_mem_filter hin)
      rw [turns_start hmem, turns_start hout, hitems']

/-- `listGET_OWNER_OF_NEXT_ENTRY` of a list that is not empty. -/
theorem IsList.getNext (h : IsList m pxList l) (hitems : l.items ≠ []) :
    ∃ m' c, listGetNextEntry pxList m = some (c, m') ∧ l.turns.head? = some c ∧
      IsList m' pxList l.next ∧ Only [] pxList m m' := by
  obtain ⟨c, rest, hturns⟩ := List.exists_cons_of_ne_nil
    fun hnil => hitems (List.nil_perm.mp (hnil ▸ turns_perm l))
  have hc : c ∈ l.items := (turns_perm l).mem_iff.mp (hturns ▸ List.mem_cons_self)
  have hhead : pxList ∉ l.items := (List.nodup_cons.mp h.ring.nodup).1
  have hcne : c ≠ pxList := fun heq => hhead (heq ▸ hc)
  have hrun : listGetNextEntry pxList m =
      some (c, { m with pxIndex := Function.update m.pxIndex pxList (some c) }) := by
    unfold listGetNextEntry
    rw [h.index]
    by_cases hmem : l.index ∈ l.items
    · obtain ⟨before, after, heq, hbefore⟩ := List.eq_append_cons_of_mem hmem
      rw [turns_at heq hbefore] at hturns
      have hring := h.ring
      rw [heq, ← List.singleton_append, ← List.append_assoc] at hring
      have hlast : (pxList :: (before ++ [l.index])).getLast? = some l.index := by
        rw [← List.cons_append, List.getLast?_concat]
      cases after with
      | cons d after =>
          obtain ⟨rfl, -⟩ := List.cons.inj hturns
          have hback : (d :: after ++ [pxList]).head? = some d := rfl
          have hnext := (hring.between hlast hback).1
          simp only [Option.bind_eq_bind, Option.bind_some, hnext, if_neg hcne]
          rfl
      | nil =>
          -- The walk is at the last item and passes the end marker.
          have hback : ([] ++ [pxList]).head? = some pxList := rfl
          have hnext := (hring.between hlast hback).1
          have hfirst : (m.links pxList).next = some c := by
            rw [h.ring.next_head, heq]
            cases before with
            | nil => exact congrArg some (List.cons.inj hturns).1
            | cons d before => exact congrArg some (List.cons.inj hturns).1
          simp only [Option.bind_eq_bind, Option.bind_some, hnext, if_pos, hfirst]
          rfl
    · rw [turns_start hmem] at hturns
      have hindex : l.index = pxList := (List.mem_cons.mp h.walk).resolve_right hmem
      have hfirst : (m.links pxList).next = some c := by
        rw [h.ring.next_head, hturns]
        rfl
      simp only [Option.bind_eq_bind, Option.bind_some, hindex, hfirst, if_neg hcne]
      rfl
  refine ⟨_, c, hrun, by rw [hturns]; rfl, ⟨h.ring, ?_, ?_, h.count, h.contained, h.marker⟩,
    fun _ _ => rfl, fun _ _ => rfl, fun other hne => Function.update_of_ne hne _ _,
    fun _ _ => rfl, rfl⟩
  · show Function.update m.pxIndex pxList (some c) pxList = some (l.turns.head?.getD l.index)
    rw [Function.update_self, hturns]
    rfl
  · show l.turns.head?.getD l.index ∈ pxList :: l.items
    rw [hturns]
    exact List.mem_cons_of_mem pxList hc

end TivaAws.Rtos.Kernel
