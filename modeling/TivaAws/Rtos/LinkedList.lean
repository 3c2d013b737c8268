import TivaAws.Foundation.LinkedRing
import Mathlib.Data.Set.Insert

/-!
# Doubly linked lists

The macros of `aws_doubly_linked_list.h`, the lists they stand for, and that the links in memory
represent the lists after every sequence of macros that keeps their contract.
-/

namespace TivaAws.Rtos

open LinkHeap

variable {α : Type*} [DecidableEq α]

/-! ## Model -/

/-- `listINIT_HEAD`. -/
def listInitHead (pxHead : α) (heap : LinkHeap α) : LinkHeap α :=
  (heap.setPrev pxHead (some pxHead)).setNext pxHead (some pxHead)

/-- `listADD`; `none` if `NULL` is followed. -/
def listAdd (pxHead pxLink : α) (heap : LinkHeap α) : Option (LinkHeap α) := do
  let pxPrevLink := pxHead
  let pxNextLink ← (heap pxHead).next
  let heap := heap.setNext pxLink (some pxNextLink)
  let heap := heap.setPrev pxNextLink (some pxLink)
  let heap := heap.setNext pxPrevLink (some pxLink)
  pure (heap.setPrev pxLink (some pxPrevLink))

/-- `listREMOVE`. -/
def listRemove (pxLink : α) (heap : LinkHeap α) : Option (LinkHeap α) := do
  let heap ←
    if (heap pxLink).next ≠ none ∧ (heap pxLink).prev ≠ none then do
      let pxPrev ← (heap pxLink).prev
      let heap := heap.setNext pxPrev (heap pxLink).next
      let pxNext ← (heap pxLink).next
      pure (heap.setPrev pxNext (heap pxLink).prev)
    else pure heap
  pure ((heap.setPrev pxLink none).setNext pxLink none)

/-- `listIS_EMPTY`. -/
def listIsEmpty (pxHead : Option α) (heap : LinkHeap α) : Bool :=
  match pxHead with
  | none => true
  | some pxHead => (heap pxHead).next = some pxHead

/-- `listPOP`: the node it assigns and the links. -/
def listPop (pxHead : α) (heap : LinkHeap α) : Option (Option α × LinkHeap α) :=
  if listIsEmpty (some pxHead) heap then pure (none, heap)
  else do
    let pxLink ← (heap pxHead).next
    let heap ← listRemove pxLink heap
    pure (some pxLink, heap)

/-- `listMERGE`. -/
def listMerge (pxHeadResultList pxHeadListToMerge : α) (heap : LinkHeap α) :
    Option (LinkHeap α) :=
  if listIsEmpty (some pxHeadListToMerge) heap then pure heap
  else do
    let last ← (heap pxHeadListToMerge).prev
    let heap := heap.setNext last (heap pxHeadResultList).next
    let next ← (heap pxHeadResultList).next
    let heap := heap.setPrev next (heap pxHeadListToMerge).prev
    let first ← (heap pxHeadListToMerge).next
    let heap := heap.setPrev first (some pxHeadResultList)
    let heap := heap.setNext pxHeadResultList (heap pxHeadListToMerge).next
    pure (listInitHead pxHeadListToMerge heap)

/-- The rounds of `listFOR_EACH` from a node on: the nodes it assigns. -/
def forEachFrom (pxHead : α) (heap : LinkHeap α) : ℕ → Option α → Option (List α)
  | 0, _ => none
  | fuel + 1, pxLink =>
      if pxLink = some pxHead then some []
      else do
        let node ← pxLink
        let visited ← forEachFrom pxHead heap fuel (heap node).next
        pure (node :: visited)

/-- `listFOR_EACH` with a body that leaves the links alone; `none` without enough fuel. -/
def listForEach (pxHead : α) (fuel : ℕ) (heap : LinkHeap α) : Option (List α) :=
  forEachFrom pxHead heap fuel (heap pxHead).next

/-- The rounds of `listFOR_EACH_SAFE` from a node and the one behind it on. -/
def forEachSafeFrom (body : α → LinkHeap α → Option (LinkHeap α)) (pxHead : α) :
    ℕ → α → Option α → LinkHeap α → Option (List α × LinkHeap α)
  | 0, _, _, _ => none
  | fuel + 1, pxLink, pxTempLink, heap =>
      if pxLink = pxHead then some ([], heap)
      else do
        let heap ← body pxLink heap
        let next ← pxTempLink
        let (visited, heap) ← forEachSafeFrom body pxHead fuel next (heap next).next heap
        pure (pxLink :: visited, heap)

/-- `listFOR_EACH_SAFE`: the nodes it assigns and the links it leaves. -/
def listForEachSafe (body : α → LinkHeap α → Option (LinkHeap α)) (pxHead : α) (fuel : ℕ)
    (heap : LinkHeap α) : Option (List α × LinkHeap α) := do
  let pxLink ← (heap pxHead).next
  forEachSafeFrom body pxHead fuel pxLink (heap pxLink).next heap

/-! ## The lists -/

/-- The lists in memory: the nodes of each head, and the nodes with cleared links. -/
structure Lists (α : Type*) where
  nodes : α → Option (List α)
  idle : Set α

namespace Lists

/-- A cell is a head or in its list. -/
def Has (lists : Lists α) (head c : α) : Prop :=
  ∃ nodes, lists.nodes head = some nodes ∧ c ∈ head :: nodes

/-- A head gets an empty list. -/
def initHead (head : α) (lists : Lists α) : Lists α where
  nodes := Function.update lists.nodes head (some [])
  idle := lists.idle \ {head}

/-- A node is put in front. -/
def add (head node : α) (lists : Lists α) : Lists α where
  nodes := Function.update lists.nodes head ((lists.nodes head).map (node :: ·))
  idle := lists.idle \ {node}

/-- A node is taken out of the list it is in. -/
def remove (node : α) (lists : Lists α) : Lists α where
  nodes head := (lists.nodes head).map (·.erase node)
  idle := insert node lists.idle

/-- The first node of a list. -/
def first (head : α) (lists : Lists α) : Option α := (lists.nodes head).bind List.head?

/-- The first node of a list is taken out. -/
def pop (head : α) (lists : Lists α) : Lists α :=
  match lists.first head with
  | none => lists
  | some node => lists.remove node

/-- The nodes of one list are put in front of another. -/
def merge (result merged : α) (lists : Lists α) : Lists α :=
  match lists.nodes result, lists.nodes merged with
  | some nodes, some others =>
      { lists with
        nodes := Function.update (Function.update lists.nodes result (some (others ++ nodes)))
          merged (some []) }
  | _, _ => lists

end Lists

/-- The links in memory represent the lists. -/
structure Represents (heap : LinkHeap α) (lists : Lists α) : Prop where
  ring : ∀ head nodes, lists.nodes head = some nodes → IsRing heap head nodes
  unshared : ∀ head head' c, lists.Has head c → lists.Has head' c → head = head'
  idle : ∀ c ∈ lists.idle, heap c = ⟨none, none⟩ ∧ ∀ head, ¬ lists.Has head c

/-! ## Runs -/

/-- A macro with its arguments. -/
inductive Macro (α : Type*) where
  | initHead (pxHead : α)
  | add (pxHead pxLink : α)
  | remove (pxLink : α)
  | pop (pxHead : α)
  | merge (pxHeadResultList pxHeadListToMerge : α)
  deriving DecidableEq, Repr

/-- What a macro does to the links, with the node `listPOP` assigns. -/
def Macro.run : Macro α → LinkHeap α → Option (Option α × LinkHeap α)
  | .initHead pxHead, heap => some (none, listInitHead pxHead heap)
  | .add pxHead pxLink, heap => (listAdd pxHead pxLink heap).map (none, ·)
  | .remove pxLink, heap => (listRemove pxLink heap).map (none, ·)
  | .pop pxHead, heap => listPop pxHead heap
  | .merge pxHeadResultList pxHeadListToMerge, heap =>
      (listMerge pxHeadResultList pxHeadListToMerge heap).map (none, ·)

/-- What a macro is to do to the lists. -/
def Macro.effect : Macro α → Lists α → Lists α
  | .initHead pxHead, lists => lists.initHead pxHead
  | .add pxHead pxLink, lists => lists.add pxHead pxLink
  | .remove pxLink, lists => lists.remove pxLink
  | .pop pxHead, lists => lists.pop pxHead
  | .merge pxHeadResultList pxHeadListToMerge, lists =>
      lists.merge pxHeadResultList pxHeadListToMerge

/-- The node a macro is to assign. -/
def Macro.result : Macro α → Lists α → Option α
  | .pop pxHead, lists => lists.first pxHead
  | _, _ => none

/-- The contract of a macro: the heads it is given are initialised, a node that is added is in no
list, a node that is removed is in a list or has cleared links, and two heads are different. -/
def Macro.Allowed : Macro α → Lists α → Prop
  | .initHead pxHead, lists => ∀ head, lists.Has head pxHead → head = pxHead
  | .add pxHead pxLink, lists => (lists.nodes pxHead).isSome ∧ ∀ head, ¬ lists.Has head pxLink
  | .remove pxLink, lists =>
      (∃ head nodes, lists.nodes head = some nodes ∧ pxLink ∈ nodes) ∨ pxLink ∈ lists.idle
  | .pop pxHead, lists => (lists.nodes pxHead).isSome
  | .merge pxHeadResultList pxHeadListToMerge, lists =>
      (lists.nodes pxHeadResultList).isSome ∧ (lists.nodes pxHeadListToMerge).isSome ∧
        pxHeadResultList ≠ pxHeadListToMerge

/-! ## The macros as joins -/

variable {heap heap' : LinkHeap α} {lists : Lists α} {head node : α} {nodes : List α}

theorem list_init_head_eq (pxHead : α) (heap : LinkHeap α) :
    listInitHead pxHead heap = heap.join pxHead pxHead :=
  setPrev_setNext pxHead pxHead (some pxHead) heap (some pxHead)

theorem list_add_eq {next : α} (hnext : (heap head).next = some next) (node : α) :
    listAdd head node heap = some ((heap.join node next).join head node) := by
  unfold listAdd
  rw [hnext]
  rfl

/-- A node without links is left alone. -/
theorem list_remove_idle (h : heap node = ⟨none, none⟩) : listRemove node heap = some heap := by
  have hlinks : ¬ ((heap node).next ≠ none ∧ (heap node).prev ≠ none) := by
    rw [h]
    exact fun hlinks => hlinks.1 rfl
  unfold listRemove
  rw [if_neg hlinks]
  show some ((heap.setPrev node none).setNext node none) = some heap
  refine congrArg some (funext fun c => Link.ext ?_ ?_)
  · rw [setNext_prev, setPrev_prev]
    split_ifs with hc
    · rw [hc, h]
    · rfl
  · rw [setNext_next, setPrev_next]
    split_ifs with hc
    · rw [hc, h]
    · rfl

/-- Both links of a cell are cleared. -/
def clear (node : α) (heap : LinkHeap α) : LinkHeap α := (heap.setPrev node none).setNext node none

theorem clear_self (node : α) (heap : LinkHeap α) : clear node heap node = ⟨none, none⟩ := by
  refine Link.ext ?_ ?_
  · rw [clear, setNext_prev, setPrev_prev, if_pos rfl]
  · rw [clear, setNext_next, if_pos rfl]

theorem clear_of_ne {c : α} (h : c ≠ node) : clear node heap c = heap c :=
  (setNext_of_ne none h).trans (setPrev_of_ne none h)

theorem list_remove_eq {prev next : α} (hprev : (heap node).prev = some prev)
    (hnext : (heap node).next = some next) (hne : node ≠ prev) :
    listRemove node heap = some (clear node (heap.join prev next)) := by
  have hlinks : (heap node).next ≠ none ∧ (heap node).prev ≠ none := by
    rw [hprev, hnext]
    exact ⟨fun h => (by cases h), fun h => (by cases h)⟩
  unfold listRemove
  rw [if_pos hlinks, hprev, hnext]
  show (do
    let pxNext ← (heap.setNext prev (some next) node).next
    pure (clear node ((heap.setNext prev (some next)).setPrev pxNext
      (heap.setNext prev (some next) node).prev))) = _
  rw [setNext_of_ne _ hne, hnext, hprev]
  rfl

theorem list_merge_eq {result merged last next first : α}
    (hempty : (heap merged).next ≠ some merged)
    (hlast : (heap merged).prev = some last) (hnext : (heap result).next = some next)
    (hfirst : (heap merged).next = some first) (hresult_last : result ≠ last)
    (hmerged_last : merged ≠ last) (hmerged_next : merged ≠ next) (hmerged_first : merged ≠ first) :
    listMerge result merged heap =
      some (((heap.join last next).join result first).join merged merged) := by
  have hjoin : heap.join last next merged = heap merged := join_of_ne hmerged_last hmerged_next
  have hstep : (heap.setNext last (some next)) merged = heap merged := setNext_of_ne _ hmerged_last
  have hresult : (heap.setNext last (some next)) result = heap result :=
    setNext_of_ne _ hresult_last
  have hprev : (((heap.join last next).setPrev first (some result)) merged) = heap merged :=
    (setPrev_of_ne _ hmerged_first).trans hjoin
  have hnot_empty : listIsEmpty (some merged) heap = false := decide_eq_false hempty
  unfold listMerge
  rw [hnot_empty, hlast, hnext]
  show (do
    let next' ← (heap.setNext last (some next) result).next
    let heap' := (heap.setNext last (some next)).setPrev next'
      (heap.setNext last (some next) merged).prev
    let first' ← (heap' merged).next
    let heap' := heap'.setPrev first' (some result)
    let heap' := heap'.setNext result (heap' merged).next
    pure (listInitHead merged heap')) = _
  rw [hresult, hnext, hstep, hlast]
  show (do
    let first' ← (heap.join last next merged).next
    let heap' := (heap.join last next).setPrev first' (some result)
    let heap' := heap'.setNext result (heap' merged).next
    pure (listInitHead merged heap')) = _
  rw [hjoin, hfirst]
  show some (listInitHead merged (((heap.join last next).setPrev first (some result)).setNext result
    (((heap.join last next).setPrev first (some result)) merged).next)) = _
  rw [hprev, hfirst, setPrev_setNext, list_init_head_eq]
  rfl

/-! ## One macro -/

omit [DecidableEq α] in
theorem Lists.has_head (h : lists.nodes head = some nodes) : lists.Has head head :=
  ⟨nodes, h, List.mem_cons_self⟩

omit [DecidableEq α] in
theorem Lists.has_of_mem {c : α} (h : lists.nodes head = some nodes) (hc : c ∈ head :: nodes) :
    lists.Has head c := ⟨nodes, h, hc⟩

theorem Lists.initHead_self (head : α) (lists : Lists α) :
    (lists.initHead head).nodes head = some [] := Function.update_self ..

theorem Lists.initHead_of_ne {h : α} (hne : h ≠ head) :
    (lists.initHead head).nodes h = lists.nodes h := Function.update_of_ne hne ..

theorem Lists.add_self (h : lists.nodes head = some nodes) (node : α) :
    (lists.add head node).nodes head = some (node :: nodes) := by
  unfold Lists.add
  rw [h]
  exact Function.update_self ..

theorem Lists.add_of_ne {h : α} (hne : h ≠ head) (node : α) :
    (lists.add head node).nodes h = lists.nodes h := Function.update_of_ne hne ..

/-- A cell is a head or in its list after a change of one list. -/
theorem Lists.has_update {c h : α} {idle : Set α} {other : Option (List α)} :
    (Lists.mk (Function.update lists.nodes head other) idle).Has h c ↔
      (h = head ∧ ∃ nodes, other = some nodes ∧ c ∈ head :: nodes) ∨
        (h ≠ head ∧ lists.Has h c) := by
  unfold Lists.Has
  by_cases hh : h = head
  · simp only [hh, Function.update_self, true_and, ne_eq, not_true, false_and, or_false]
  · simp only [Function.update_of_ne hh, hh, false_and, false_or, ne_eq, not_false_iff, true_and]

/-- A head may be initialised at any time; the nodes of its list are then in no list. -/
theorem Represents.initHead (h : Represents heap lists)
    (hallowed : (Macro.initHead head).Allowed lists) :
    Represents (listInitHead head heap) (lists.initHead head) := by
  rw [list_init_head_eq]
  have hsame : ∀ h c, h ≠ head → lists.Has h c → heap.join head head c = heap c := by
    intro h c hne hhas
    have hc : c ≠ head := fun hc => hne (hallowed h (hc ▸ hhas))
    exact join_of_ne hc hc
  refine ⟨fun h' nodes hnodes => ?_, fun h₁ h₂ c hc₁ hc₂ => ?_, fun c hc => ⟨?_, fun h' hc' => ?_⟩⟩
  · by_cases hh : h' = head
    · subst hh
      cases (Lists.initHead_self h' lists).symm.trans hnodes
      exact .init heap h'
    · have hold : lists.nodes h' = some nodes := (Lists.initHead_of_ne hh).symm.trans hnodes
      exact (h.ring h' nodes hold).frame fun c hc => hsame h' c hh (Lists.has_of_mem hold hc)
  · have hsingle : ∀ {h' c}, (h' = head ∧ ∃ nodes, some ([] : List α) = some nodes ∧
        c ∈ head :: nodes) → h' = head ∧ c = head := by
      intro h' c ⟨hh, nodes, hnil, hc⟩
      cases hnil
      exact ⟨hh, List.mem_singleton.mp hc⟩
    obtain hnew₁ | ⟨-, hold₁⟩ := Lists.has_update.mp hc₁
    · obtain ⟨rfl, rfl⟩ := hsingle hnew₁
      obtain hnew₂ | ⟨-, hold₂⟩ := Lists.has_update.mp hc₂
      · exact (hsingle hnew₂).1.symm
      · exact (hallowed h₂ hold₂).symm
    · obtain hnew₂ | ⟨-, hold₂⟩ := Lists.has_update.mp hc₂
      · obtain ⟨rfl, rfl⟩ := hsingle hnew₂
        exact hallowed h₁ hold₁
      · exact h.unshared h₁ h₂ c hold₁ hold₂
  · exact (join_of_ne hc.2 hc.2).trans (h.idle c hc.1).1
  · obtain ⟨-, nodes, hnil, hc'⟩ | ⟨-, hc'⟩ := Lists.has_update.mp hc'
    · cases hnil
      exact hc.2 (List.mem_singleton.mp hc')
    · exact (h.idle c hc.1).2 h' hc'

/-- A node is put in front of a list. -/
theorem Represents.add (h : Represents heap lists)
    (hallowed : (Macro.add head node).Allowed lists) :
    ∃ heap', listAdd head node heap = some heap' ∧ Represents heap' (lists.add head node) := by
  obtain ⟨hhead, hnode⟩ := hallowed
  obtain ⟨nodes, hnodes⟩ := Option.isSome_iff_exists.mp hhead
  have hring := h.ring head nodes hnodes
  obtain ⟨next, back, hback⟩ := List.exists_cons_of_ne_nil
    (List.append_ne_nil_of_right_ne_nil nodes (List.cons_ne_nil head []))
  have hnext : (heap head).next = some next := by
    rw [hring.next_head, hback]
    rfl
  have hhas_next : lists.Has head next := by
    refine Lists.has_of_mem hnodes ?_
    have hmem : next ∈ nodes ++ [head] := hback ▸ List.mem_cons_self
    exact (List.mem_append.mp hmem).elim (List.mem_cons_of_mem head)
      fun hmem => List.mem_singleton.mp hmem ▸ List.mem_cons_self
  have hsame : ∀ c, ¬ lists.Has head c → c ≠ node →
      (heap.join node next).join head node c = heap c := by
    intro c hc hne
    have hc_head : c ≠ head := fun h => hc (h.symm ▸ Lists.has_head hnodes)
    have hc_next : c ≠ next := fun h => hc (h.symm ▸ hhas_next)
    exact (join_of_ne hc_head hne).trans (join_of_ne hne hc_next)
  have hadd : (lists.nodes head).map (node :: ·) = some (node :: nodes) := by
    rw [hnodes]
    rfl
  refine ⟨_, list_add_eq hnext node, fun h' nodes' hnodes' => ?_, fun h₁ h₂ c hc₁ hc₂ => ?_,
    fun c hc => ⟨?_, fun h' hc' => ?_⟩⟩
  · by_cases hh : h' = head
    · subst hh
      cases (Lists.add_self hnodes node).symm.trans hnodes'
      exact hring.insert (fun hmem => hnode h' (Lists.has_of_mem hnodes hmem)) hnext
    · have hold : lists.nodes h' = some nodes' := (Lists.add_of_ne hh node).symm.trans hnodes'
      refine (h.ring h' nodes' hold).frame fun c hc => ?_
      have hhas := Lists.has_of_mem hold hc
      exact hsame c (fun hc => hh (h.unshared h' head c hhas hc)) fun hc => hnode h' (hc ▸ hhas)
  · -- The new cell is in one list only.
    have hcases : ∀ {h' c}, (lists.add head node).Has h' c →
        (h' = head ∧ c = node) ∨ lists.Has h' c := by
      intro h' c hc
      obtain ⟨rfl, nodes', hcons, hc⟩ | ⟨-, hc⟩ := Lists.has_update.mp hc
      · cases hadd.symm.trans hcons
        obtain rfl | hc := List.mem_cons.mp hc
        · exact Or.inr (Lists.has_head hnodes)
        · obtain rfl | hc := List.mem_cons.mp hc
          · exact Or.inl ⟨rfl, rfl⟩
          · exact Or.inr (Lists.has_of_mem hnodes (List.mem_cons_of_mem _ hc))
      · exact Or.inr hc
    obtain ⟨rfl, rfl⟩ | hc₁ := hcases hc₁
    · exact (hcases hc₂).elim (fun hc₂ => hc₂.1.symm) fun hc₂ => absurd hc₂ (hnode h₂)
    · exact (hcases hc₂).elim (fun hc₂ => absurd (hc₂.2 ▸ hc₁) (hnode h₁))
        (h.unshared h₁ h₂ c hc₁)
  · exact (hsame c ((h.idle c hc.1).2 head) hc.2).trans (h.idle c hc.1).1
  · obtain ⟨rfl, nodes', hcons, hmem⟩ | ⟨-, hmem⟩ := Lists.has_update.mp hc'
    · cases hadd.symm.trans hcons
      refine (h.idle c hc.1).2 h' ?_
      obtain rfl | hmem := List.mem_cons.mp hmem
      · exact Lists.has_head hnodes
      · exact Lists.has_of_mem hnodes
          (List.mem_cons_of_mem _ ((List.mem_cons.mp hmem).resolve_left hc.2))
    · exact (h.idle c hc.1).2 h' hmem

/-- A node that is in no list is left where it is. -/
theorem Lists.remove_idle (hidle : node ∈ lists.idle) (h : ∀ head, ¬ lists.Has head node) :
    lists.remove node = lists := by
  have hnodes : ∀ head, (lists.nodes head).map (·.erase node) = lists.nodes head := by
    intro head
    cases hhead : lists.nodes head with
    | none => rfl
    | some nodes =>
        have hmem : node ∉ nodes :=
          fun hmem => h head (Lists.has_of_mem hhead (List.mem_cons_of_mem head hmem))
        exact congrArg some (List.erase_of_not_mem hmem)
  show Lists.mk _ _ = lists
  rw [Set.insert_eq_of_mem hidle]
  exact congrArg (Lists.mk · lists.idle) (funext hnodes)

/-- A node of a list is taken out of it and its links are cleared. -/
theorem Represents.remove_mem (h : Represents heap lists) (hnodes : lists.nodes head = some nodes)
    (hmem : node ∈ nodes) :
    ∃ heap', listRemove node heap = some heap' ∧ Represents heap' (lists.remove node) := by
  have hring := h.ring head nodes hnodes
  obtain ⟨hhead, hnodup⟩ := List.nodup_cons.mp hring.nodup
  have hhas_node : lists.Has head node := Lists.has_of_mem hnodes (List.mem_cons_of_mem head hmem)
  obtain ⟨before, after, rfl⟩ := List.append_of_mem hmem
  obtain ⟨prev, next, hprev, hnext, hprev_mem, hnext_mem, hout⟩ := hring.remove
  have hnode_before : node ∉ before :=
    fun hbefore => List.disjoint_of_nodup_append hnodup hbefore List.mem_cons_self
  have hne_head : node ≠ head := fun h => hhead (h ▸ hmem)
  have hne_prev :
      node ≠ prev := fun h => (List.mem_cons.mp (h ▸ hprev_mem)).elim hne_head hnode_before
  have hhas_prev : lists.Has head prev := by
    refine Lists.has_of_mem hnodes ?_
    exact (List.mem_cons.mp hprev_mem).elim (fun h => h ▸ List.mem_cons_self)
      fun hmem => List.mem_cons_of_mem head (List.mem_append_left _ hmem)
  have hhas_next : lists.Has head next := by
    refine Lists.has_of_mem hnodes ?_
    exact (List.mem_append.mp hnext_mem).elim
      (fun hmem => List.mem_cons_of_mem head
        (List.mem_append_right before (List.mem_cons_of_mem node hmem)))
      fun hmem => List.mem_singleton.mp hmem ▸ List.mem_cons_self
  have hsame : ∀ c, ¬ lists.Has head c → clear node (heap.join prev next) c = heap c := by
    intro c hc
    have hc_node : c ≠ node := fun h => hc (h.symm ▸ hhas_node)
    have hc_prev : c ≠ prev := fun h => hc (h.symm ▸ hhas_prev)
    have hc_next : c ≠ next := fun h => hc (h.symm ▸ hhas_next)
    exact (clear_of_ne hc_node).trans (join_of_ne hc_prev hc_next)
  -- The node is in no list any more, and nothing else has moved.
  have hhas : ∀ h' c, (lists.remove node).Has h' c → lists.Has h' c ∧ c ≠ node := by
    intro h' c ⟨nodes', hnodes', hc⟩
    obtain ⟨old, hold, rfl⟩ := Option.map_eq_some_iff.mp hnodes'
    have hnodup' := (List.nodup_cons.mp (h.ring h' old hold).nodup).2
    obtain rfl | hc := List.mem_cons.mp hc
    · refine ⟨Lists.has_head hold, fun hc => ?_⟩
      exact hne_head (hc.symm.trans (h.unshared _ _ _ (hc ▸ Lists.has_head hold) hhas_node))
    · obtain ⟨hne, hc⟩ := (hnodup'.mem_erase_iff).mp hc
      exact ⟨Lists.has_of_mem hold (List.mem_cons_of_mem h' hc), hne⟩
  refine ⟨_, list_remove_eq hprev hnext hne_prev, fun h' nodes' hnodes' => ?_,
    fun h₁ h₂ c hc₁ hc₂ => h.unshared h₁ h₂ c (hhas h₁ c hc₁).1 (hhas h₂ c hc₂).1,
    fun c hc => ?_⟩
  · obtain ⟨old, hold, rfl⟩ := Option.map_eq_some_iff.mp hnodes'
    by_cases hh : h' = head
    · subst hh
      cases hnodes.symm.trans hold
      have herase : (before ++ node :: after).erase node = before ++ after := by
        rw [List.erase_append_right _ hnode_before, List.erase_cons_head]
      rw [herase]
      refine hout.frame fun c hc => clear_of_ne ?_
      have hc' : (lists.remove node).Has h' c := ⟨before ++ after, by rw [hnodes', herase], hc⟩
      exact (hhas h' c hc').2
    · have hold_mem : node ∉ old := fun hmem =>
        hh (h.unshared h' head node (Lists.has_of_mem hold (List.mem_cons_of_mem h' hmem))
          hhas_node)
      rw [List.erase_of_not_mem hold_mem]
      refine (h.ring h' old hold).frame fun c hc => hsame c fun hc' => ?_
      exact hh (h.unshared h' head c (Lists.has_of_mem hold hc) hc')
  · obtain rfl | hc := Set.mem_insert_iff.mp hc
    · exact ⟨clear_self c _, fun h' hc' => (hhas h' c hc').2 rfl⟩
    · obtain ⟨hlinks, hnot⟩ := h.idle c hc
      exact ⟨(hsame c (hnot head)).trans hlinks, fun h' hc' => hnot h' (hhas h' c hc').1⟩

/-- A node is taken out of its list, or nothing happens. -/
theorem Represents.remove (h : Represents heap lists)
    (hallowed : (Macro.remove node).Allowed lists) :
    ∃ heap', listRemove node heap = some heap' ∧ Represents heap' (lists.remove node) := by
  obtain ⟨head, nodes, hnodes, hmem⟩ | hidle := hallowed
  · exact h.remove_mem hnodes hmem
  · obtain ⟨hlinks, hnot⟩ := h.idle node hidle
    rw [Lists.remove_idle hidle hnot]
    exact ⟨heap, list_remove_idle hlinks, h⟩

/-- The head of a list points to itself exactly if the list is empty. -/
theorem Represents.isEmpty_iff (h : Represents heap lists)
    (hnodes : lists.nodes head = some nodes) :
    listIsEmpty (some head) heap = true ↔ nodes = [] := by
  have hring := h.ring head nodes hnodes
  have hempty : listIsEmpty (some head) heap = true ↔ (heap head).next = some head :=
    decide_eq_true_iff
  rw [hempty, hring.next_head]
  cases nodes with
  | nil => exact iff_of_true rfl rfl
  | cons node nodes =>
      refine iff_of_false (fun hfirst => ?_) (List.cons_ne_nil node nodes)
      have hne : node = head := Option.some.inj hfirst
      exact (List.nodup_cons.mp hring.nodup).1 (hne ▸ List.mem_cons_self)

/-- The first node of a list is taken out and assigned, or `NULL` is. -/
theorem Represents.pop (h : Represents heap lists) (hallowed : (Macro.pop head).Allowed lists) :
    ∃ heap', listPop head heap = some (lists.first head, heap') ∧
      Represents heap' (lists.pop head) := by
  obtain ⟨nodes, hnodes⟩ := Option.isSome_iff_exists.mp hallowed
  have hfirst : lists.first head = nodes.head? := by
    unfold Lists.first
    rw [hnodes]
    rfl
  unfold listPop Lists.pop
  rw [hfirst]
  cases nodes with
  | nil =>
      rw [if_pos ((h.isEmpty_iff hnodes).mpr rfl)]
      exact ⟨heap, rfl, h⟩
  | cons node nodes =>
      have hnot_empty : ¬ listIsEmpty (some head) heap = true :=
        fun hempty => List.cons_ne_nil node nodes ((h.isEmpty_iff hnodes).mp hempty)
      obtain ⟨heap', hremove, hrepresents⟩ := h.remove_mem hnodes List.mem_cons_self
      rw [if_neg hnot_empty, (h.ring head _ hnodes).next_head]
      refine ⟨heap', ?_, hrepresents⟩
      show (do
        let heap ← listRemove node heap
        pure (some node, heap)) = _
      rw [hremove]
      rfl

theorem Lists.merge_eq {result merged : α} {others : List α}
    (hnodes : lists.nodes result = some nodes) (hothers : lists.nodes merged = some others) :
    lists.merge result merged =
      { lists with
        nodes := Function.update (Function.update lists.nodes result (some (others ++ nodes)))
          merged (some []) } := by
  unfold Lists.merge
  rw [hnodes, hothers]

/-- The merge of an empty list changes nothing. -/
theorem Lists.merge_nil {result merged : α} (hnodes : lists.nodes result = some nodes)
    (hothers : lists.nodes merged = some []) : lists.merge result merged = lists := by
  rw [Lists.merge_eq hnodes hothers, List.nil_append, ← hnodes, Function.update_eq_self, ← hothers,
    Function.update_eq_self]

/-- The nodes of one list are put in front of another, and the first list is emptied. -/
theorem Represents.merge_cons {result merged : α} {others : List α} (h : Represents heap lists)
    (hnodes : lists.nodes result = some nodes) (hothers : lists.nodes merged = some others)
    (hne : result ≠ merged) (hcons : others ≠ []) :
    ∃ heap', listMerge result merged heap = some heap' ∧
      Represents heap' (lists.merge result merged) := by
  have hring := h.ring result nodes hnodes
  have hother := h.ring merged others hothers
  have hapart : ∀ c, lists.Has merged c → ¬ lists.Has result c :=
    fun c hc hc' => hne (h.unshared result merged c hc' hc)
  have hhas_result := Lists.has_head hnodes
  have hhas_merged := Lists.has_head hothers
  have hhas_others : ∀ c ∈ others, lists.Has merged c :=
    fun c hc => Lists.has_of_mem hothers (List.mem_cons_of_mem merged hc)
  obtain ⟨next, back, hback⟩ := List.exists_cons_of_ne_nil
    (List.append_ne_nil_of_right_ne_nil nodes (List.cons_ne_nil result []))
  have hnext : (heap result).next = some next := by
    rw [hring.next_head, hback]
    rfl
  have hhas_next : lists.Has result next := by
    have hmem : next ∈ nodes ++ [result] := hback ▸ List.mem_cons_self
    refine Lists.has_of_mem hnodes ?_
    exact (List.mem_append.mp hmem).elim (List.mem_cons_of_mem result)
      fun hmem => List.mem_singleton.mp hmem ▸ List.mem_cons_self
  obtain ⟨first, rest, rfl⟩ := List.exists_cons_of_ne_nil hcons
  obtain ⟨last, hlast⟩ := Option.isSome_iff_exists.mp
    (List.getLast?_isSome.mpr (List.cons_ne_nil first rest))
  have hlast_mem := List.mem_of_getLast? hlast
  have hprev : (heap merged).prev = some last := by
    rw [hother.prev_head, List.getLast?_cons_cons]
    exact hlast
  have hfirst : (heap merged).next = some first := hother.next_head
  have hmerged_others : merged ∉ first :: rest := (List.nodup_cons.mp hother.nodup).1
  have hempty : (heap merged).next ≠ some merged := by
    rw [hfirst]
    exact fun h => hmerged_others (Option.some.inj h ▸ List.mem_cons_self)
  have hresult_last : result ≠ last :=
    fun h => hapart last (hhas_others last hlast_mem) (h ▸ hhas_result)
  have hmerged_last : merged ≠ last := fun h => hmerged_others (h ▸ hlast_mem)
  have hmerged_next : merged ≠ next := fun h => hapart merged hhas_merged (h ▸ hhas_next)
  have hmerged_first : merged ≠ first := fun h => hmerged_others (h ▸ List.mem_cons_self)
  have hsame : ∀ c, ¬ lists.Has result c → ¬ lists.Has merged c →
      ((heap.join last next).join result first).join merged merged c = heap c := by
    intro c hc hc'
    have hc_merged : c ≠ merged := fun h => hc' (h.symm ▸ hhas_merged)
    have hc_result : c ≠ result := fun h => hc (h.symm ▸ hhas_result)
    have hc_first : c ≠ first := fun h => hc' (h.symm ▸ hhas_others first List.mem_cons_self)
    have hc_last : c ≠ last := fun h => hc' (h.symm ▸ hhas_others last hlast_mem)
    have hc_next : c ≠ next := fun h => hc (h.symm ▸ hhas_next)
    rw [join_of_ne hc_merged hc_merged, join_of_ne hc_result hc_first, join_of_ne hc_last hc_next]
  have hsplice := hring.splice hother
    (fun c hc hmem => hapart c (hhas_others c hc) (Lists.has_of_mem hnodes hmem)) hlast hnext rfl
  rw [Lists.merge_eq hnodes hothers]
  -- A cell of the merged list now belongs to the other head.
  have hcases : ∀ {h' c}, (Lists.mk (Function.update (Function.update lists.nodes result
      (some (first :: rest ++ nodes))) merged (some [])) lists.idle).Has h' c →
      (h' = merged ∧ c = merged) ∨
        h' ≠ merged ∧ c ≠ merged ∧ (lists.Has h' c ∨ h' = result ∧ lists.Has merged c) := by
    intro h' c hc
    obtain ⟨rfl, nodes', hnil, hc⟩ | ⟨hne', hc⟩ :=
      (@Lists.has_update α _ (Lists.mk (Function.update lists.nodes result
        (some (first :: rest ++ nodes))) lists.idle) merged c h' lists.idle (some [])).mp hc
    · cases hnil
      exact Or.inl ⟨rfl, List.mem_singleton.mp hc⟩
    · refine Or.inr ⟨hne', ?_⟩
      obtain ⟨rfl, nodes', hsome, hc⟩ | ⟨-, hc⟩ := Lists.has_update.mp hc
      · cases hsome
        obtain rfl | hc := List.mem_cons.mp hc
        · exact ⟨hne', Or.inl hhas_result⟩
        · obtain hc | hc := List.mem_append.mp hc
          · exact ⟨ne_of_mem_of_not_mem hc hmerged_others, Or.inr ⟨rfl, hhas_others c hc⟩⟩
          · have hhas := Lists.has_of_mem hnodes (List.mem_cons_of_mem _ hc)
            exact ⟨fun h => hapart merged hhas_merged (h ▸ hhas), Or.inl hhas⟩
      · exact ⟨fun h' => hne' (h.unshared _ merged c hc (h' ▸ hhas_merged)), Or.inl hc⟩
  refine ⟨_, list_merge_eq hempty hprev hnext hfirst hresult_last hmerged_last hmerged_next
    hmerged_first, fun h' nodes' hnodes' => ?_, fun h₁ h₂ c hc₁ hc₂ => ?_, fun c hc => ?_⟩
  · by_cases hh : h' = merged
    · subst hh
      cases (Function.update_self (f := Function.update lists.nodes result _) ..).symm.trans hnodes'
      exact .init _ h'
    have hupdate : Function.update lists.nodes result (some (first :: rest ++ nodes)) h' =
        some nodes' := (Function.update_of_ne hh ..).symm.trans hnodes'
    by_cases hh' : h' = result
    · subst hh'
      cases (Function.update_self ..).symm.trans hupdate
      refine hsplice.frame fun c hc => ?_
      obtain ⟨-, hc_merged, -⟩ := (hcases ⟨_, hnodes', hc⟩).resolve_left fun h => hh h.1
      exact join_of_ne hc_merged hc_merged
    · have hold : lists.nodes h' = some nodes' := (Function.update_of_ne hh' ..).symm.trans hupdate
      refine (h.ring h' nodes' hold).frame fun c hc => ?_
      have hhas := Lists.has_of_mem hold hc
      exact hsame c (fun hc => hh' (h.unshared h' result c hhas hc))
        fun hc => hh (h.unshared h' merged c hhas hc)
  · obtain ⟨rfl, rfl⟩ | ⟨hne₁, hc_ne, hold₁⟩ := hcases hc₁
    · obtain ⟨rfl, -⟩ | ⟨-, hc_ne, -⟩ := hcases hc₂
      · rfl
      · exact absurd rfl hc_ne
    · obtain ⟨-, rfl⟩ | ⟨hne₂, -, hold₂⟩ := hcases hc₂
      · exact absurd rfl hc_ne
      · obtain hold₁ | ⟨rfl, hold₁⟩ := hold₁
        · obtain hold₂ | ⟨rfl, hold₂⟩ := hold₂
          · exact h.unshared h₁ h₂ c hold₁ hold₂
          · exact absurd (h.unshared h₁ merged c hold₁ hold₂) hne₁
        · obtain hold₂ | ⟨rfl, hold₂⟩ := hold₂
          · exact absurd (h.unshared h₂ merged c hold₂ hold₁) hne₂
          · rfl
  · obtain ⟨hlinks, hnot⟩ := h.idle c hc
    refine ⟨(hsame c (hnot result) (hnot merged)).trans hlinks, fun h' hc' => ?_⟩
    obtain ⟨-, rfl⟩ | ⟨-, -, hold | ⟨-, hold⟩⟩ := hcases hc'
    · exact hnot c hhas_merged
    · exact hnot h' hold
    · exact hnot merged hold

/-- One list is put in front of another. -/
theorem Represents.merge {result merged : α} (h : Represents heap lists)
    (hallowed : (Macro.merge result merged).Allowed lists) :
    ∃ heap', listMerge result merged heap = some heap' ∧
      Represents heap' (lists.merge result merged) := by
  obtain ⟨hresult, hmerged, hne⟩ := hallowed
  obtain ⟨nodes, hnodes⟩ := Option.isSome_iff_exists.mp hresult
  obtain ⟨others, hothers⟩ := Option.isSome_iff_exists.mp hmerged
  by_cases hnil : others = []
  · subst hnil
    rw [Lists.merge_nil hnodes hothers]
    unfold listMerge
    rw [if_pos ((h.isEmpty_iff hothers).mpr rfl)]
    exact ⟨heap, rfl, h⟩
  · exact h.merge_cons hnodes hothers hne hnil

/-- A macro that keeps its contract follows no `NULL` and does what it is to do to the lists. -/
theorem Represents.run (h : Represents heap lists) {m : Macro α} (hallowed : m.Allowed lists) :
    ∃ heap', m.run heap = some (m.result lists, heap') ∧ Represents heap' (m.effect lists) := by
  cases m with
  | initHead pxHead => exact ⟨_, rfl, h.initHead hallowed⟩
  | add pxHead pxLink =>
      obtain ⟨heap', hrun, hrepresents⟩ := h.add hallowed
      exact ⟨heap', congrArg (Option.map (none, ·)) hrun, hrepresents⟩
  | remove pxLink =>
      obtain ⟨heap', hrun, hrepresents⟩ := h.remove hallowed
      exact ⟨heap', congrArg (Option.map (none, ·)) hrun, hrepresents⟩
  | pop pxHead => exact h.pop hallowed
  | merge pxHeadResultList pxHeadListToMerge =>
      obtain ⟨heap', hrun, hrepresents⟩ := h.merge hallowed
      exact ⟨heap', congrArg (Option.map (none, ·)) hrun, hrepresents⟩

/-! ## Every sequence of macros -/

/-- The lists before anything is initialised. -/
def Lists.initial (heap : LinkHeap α) : Lists α where
  nodes _ := none
  idle := {c | heap c = ⟨none, none⟩}

/-- The macros of a sequence one after another, with the nodes they assign. -/
def runMacros : List (Macro α) → LinkHeap α → Option (List (Option α) × LinkHeap α)
  | [], heap => some ([], heap)
  | m :: macros, heap => do
      let (result, heap) ← m.run heap
      let (results, heap) ← runMacros macros heap
      pure (result :: results, heap)

/-- What a sequence is to do to the lists. -/
def effects (macros : List (Macro α)) (lists : Lists α) : Lists α :=
  macros.foldl (fun lists m => m.effect lists) lists

/-- The nodes a sequence is to assign. -/
def results : List (Macro α) → Lists α → List (Option α)
  | [], _ => []
  | m :: macros, lists => m.result lists :: results macros (m.effect lists)

/-- Each macro of a sequence keeps its contract. -/
def AllAllowed : List (Macro α) → Lists α → Prop
  | [], _ => True
  | m :: macros, lists => m.Allowed lists ∧ AllAllowed macros (m.effect lists)

omit [DecidableEq α] in
theorem represents_initial (heap : LinkHeap α) : Represents heap (Lists.initial heap) := by
  have hnone : ∀ head c, ¬ (Lists.initial heap).Has head c := by
    intro head c ⟨nodes, hnodes, _⟩
    cases hnodes
  exact ⟨fun _ _ h => (by cases h), fun head _ c hc => absurd hc (hnone head c),
    fun c hc => ⟨hc, fun head => hnone head c⟩⟩

/-- The links represent the lists after a sequence of macros. -/
theorem Represents.runMacros (h : Represents heap lists) {macros : List (Macro α)}
    (hallowed : AllAllowed macros lists) :
    ∃ heap', runMacros macros heap = some (results macros lists, heap') ∧
      Represents heap' (effects macros lists) := by
  induction macros generalizing heap lists with
  | nil => exact ⟨heap, rfl, h⟩
  | cons m macros ih =>
      obtain ⟨hm, hmacros⟩ := hallowed
      obtain ⟨heap₁, hrun, h₁⟩ := h.run hm
      obtain ⟨heap₂, hruns, h₂⟩ := ih h₁ hmacros
      refine ⟨heap₂, ?_, h₂⟩
      unfold Rtos.runMacros
      rw [hrun]
      show (do
        let (results, heap) ← Rtos.runMacros macros heap₁
        pure (m.result lists :: results, heap)) = _
      rw [hruns]
      rfl

/-! ## Loops -/

/-- A body leaves the nodes behind the current one where they are. -/
def LeavesRest (body : α → LinkHeap α → Option (LinkHeap α)) (pxHead : α) : Prop :=
  ∀ heap lists before node rest, Represents heap lists →
    lists.nodes pxHead = some (before ++ node :: rest) →
    ∃ heap' lists' before', body node heap = some heap' ∧ Represents heap' lists' ∧
      lists'.nodes pxHead = some (before' ++ rest)

/-- The loop assigns the nodes from any one on up to the head. -/
theorem for_each_from {before rest : List α} {fuel : ℕ} (h : Represents heap lists)
    (hnodes : lists.nodes head = some (before ++ rest)) (hfuel : rest.length < fuel) :
    forEachFrom head heap fuel (rest ++ [head]).head? = some rest := by
  have hring := h.ring head _ hnodes
  induction rest generalizing before fuel with
  | nil =>
      obtain ⟨fuel, rfl⟩ := Nat.exists_eq_succ_of_ne_zero (Nat.ne_zero_of_lt hfuel)
      exact if_pos rfl
  | cons node rest ih =>
      obtain ⟨fuel, rfl⟩ := Nat.exists_eq_succ_of_ne_zero (Nat.ne_zero_of_lt hfuel)
      have hne : some node ≠ some head := by
        intro h
        have hmem : node ∈ before ++ node :: rest := List.mem_append_right before List.mem_cons_self
        exact (List.nodup_cons.mp hring.nodup).1 (Option.some.inj h ▸ hmem)
      have hsplit : before ++ node :: rest = (before ++ [node]) ++ rest := by
        rw [List.append_assoc]
        rfl
      have hrest := ih (hsplit ▸ hnodes) (Nat.lt_of_succ_lt_succ hfuel) (hsplit ▸ hring)
      show forEachFrom head heap (fuel + 1) (some node) = _
      rw [forEachFrom, if_neg hne]
      show (do
        let visited ← forEachFrom head heap fuel (heap node).next
        pure (node :: visited)) = _
      rw [hring.next_node, hrest]
      rfl

/-- The safe loop assigns the nodes from any one on up to the head, whatever the body does to those
before. -/
theorem for_each_safe_from {body : α → LinkHeap α → Option (LinkHeap α)} {before rest : List α}
    {link : α} {fuel : ℕ} (hbody : LeavesRest body head) (h : Represents heap lists)
    (hnodes : lists.nodes head = some (before ++ rest))
    (hlink : (rest ++ [head]).head? = some link) (hfuel : rest.length < fuel) :
    ∃ heap' lists', forEachSafeFrom body head fuel link (heap link).next heap = some (rest, heap') ∧
      Represents heap' lists' := by
  induction rest generalizing before link fuel heap lists with
  | nil =>
      obtain ⟨fuel, rfl⟩ := Nat.exists_eq_succ_of_ne_zero (Nat.ne_zero_of_lt hfuel)
      exact ⟨heap, lists, if_pos (Option.some.inj hlink).symm, h⟩
  | cons node rest ih =>
      obtain ⟨fuel, rfl⟩ := Nat.exists_eq_succ_of_ne_zero (Nat.ne_zero_of_lt hfuel)
      obtain rfl : node = link := Option.some.inj hlink
      have hring := h.ring head _ hnodes
      have hne : node ≠ head := by
        intro h
        have hmem : node ∈ before ++ node :: rest := List.mem_append_right before List.mem_cons_self
        exact (List.nodup_cons.mp hring.nodup).1 (h ▸ hmem)
      obtain ⟨next, back, hback⟩ := List.exists_cons_of_ne_nil
        (List.append_ne_nil_of_right_ne_nil rest (List.cons_ne_nil head []))
      have hnext : (rest ++ [head]).head? = some next := congrArg List.head? hback
      obtain ⟨heap₁, lists₁, before₁, hrun, h₁, hnodes₁⟩ :=
        hbody heap lists before node rest h hnodes
      obtain ⟨heap', lists', hloop, h'⟩ := ih h₁ hnodes₁ hnext (Nat.lt_of_succ_lt_succ hfuel)
      refine ⟨heap', lists', ?_, h'⟩
      rw [forEachSafeFrom, if_neg hne, hring.next_node, hnext, hrun]
      show (do
        let (visited, heap) ← forEachSafeFrom body head fuel next (heap₁ next).next heap₁
        pure (node :: visited, heap)) = _
      rw [hloop]
      rfl

/-- A body that takes some of the nodes out when they are the current one. -/
def removing (p : α → LinkHeap α → Bool) (node : α) (heap : LinkHeap α) : Option (LinkHeap α) :=
  if p node heap then listRemove node heap else some heap

/-- Taking out the current node leaves the nodes behind it where they are. -/
theorem leaves_rest_removing (p : α → LinkHeap α → Bool) (head : α) :
    LeavesRest (removing p) head := by
  intro heap lists before node rest h hnodes
  unfold removing
  by_cases hp : p node heap = true
  · rw [if_pos hp]
    have hmem : node ∈ before ++ node :: rest := List.mem_append_right before List.mem_cons_self
    obtain ⟨heap', hremove, h'⟩ := h.remove_mem hnodes hmem
    have hnodup := (List.nodup_cons.mp (h.ring head _ hnodes).nodup).2
    have hnode_before : node ∉ before :=
      fun hbefore => List.disjoint_of_nodup_append hnodup hbefore List.mem_cons_self
    refine ⟨heap', lists.remove node, before, hremove, h', ?_⟩
    show (lists.nodes head).map (·.erase node) = _
    rw [hnodes, Option.map_some, List.erase_append_right _ hnode_before, List.erase_cons_head]
  · rw [if_neg hp]
    refine ⟨heap, lists, before ++ [node], rfl, h, ?_⟩
    rw [hnodes, List.append_assoc]
    rfl

/-- After every sequence of macros that keeps their contract the links represent the lists, a node
with cleared links can be removed again, and the loops assign the nodes of a list in order. -/
theorem lists_represented (heap : LinkHeap α) {macros : List (Macro α)}
    (hallowed : AllAllowed macros (Lists.initial heap)) :
    ∃ heap', runMacros macros heap = some (results macros (Lists.initial heap), heap') ∧
      Represents heap' (effects macros (Lists.initial heap)) ∧
      (∀ node ∈ (effects macros (Lists.initial heap)).idle, listRemove node heap' = some heap') ∧
      ∀ pxHead nodes, (effects macros (Lists.initial heap)).nodes pxHead = some nodes →
        (∀ p, LeavesRest (removing p) pxHead) ∧
        ∀ fuel, nodes.length < fuel →
          listForEach pxHead fuel heap' = some nodes ∧
          ∀ body, LeavesRest body pxHead → ∃ heap'' lists,
            listForEachSafe body pxHead fuel heap' = some (nodes, heap'') ∧
              Represents heap'' lists := by
  obtain ⟨heap', hrun, h⟩ := (represents_initial heap).runMacros hallowed
  refine ⟨heap', hrun, h, fun node hnode => list_remove_idle (h.idle node hnode).1, ?_⟩
  intro pxHead nodes hnodes
  refine ⟨fun p => leaves_rest_removing p pxHead, fun fuel hfuel => ?_⟩
  have hnext := (h.ring pxHead nodes hnodes).next_head
  have hwhole : (effects macros (Lists.initial heap)).nodes pxHead = some ([] ++ nodes) := hnodes
  constructor
  · unfold listForEach
    rw [hnext]
    exact for_each_from h hwhole hfuel
  · intro body hbody
    obtain ⟨link, back, hback⟩ := List.exists_cons_of_ne_nil
      (List.append_ne_nil_of_right_ne_nil nodes (List.cons_ne_nil pxHead []))
    have hlink : (nodes ++ [pxHead]).head? = some link := congrArg List.head? hback
    unfold listForEachSafe
    rw [hnext, hlink]
    exact for_each_safe_from hbody h hwhole hlink hfuel

instance (lists : Lists α) (head c : α) : Decidable (lists.Has head c) :=
  inferInstanceAs (Decidable (∃ nodes ∈ lists.nodes head, c ∈ head :: nodes))

/-- The list of head 3 is merged into that of head 0, from which then a node is popped and another
one is removed, twice. -/
def benchMerge : List (Macro (Fin 6)) :=
  [.initHead 0, .initHead 3, .add 0 1, .add 0 2, .add 3 4, .add 3 5, .merge 0 3, .pop 0, .remove 1,
    .remove 1]

theorem lists_represented_merged :
    ∃ heap', runMacros benchMerge (fun _ => ⟨none, none⟩) =
        some ([none, none, none, none, none, none, none, some 5, none, none], heap') ∧
      Represents heap' (effects benchMerge (Lists.initial fun _ => ⟨none, none⟩)) ∧
      listForEach 0 6 heap' = some [4, 2] := by
  have hallowed : AllAllowed benchMerge (Lists.initial fun _ => ⟨none, none⟩) := by
    have hfirst : ∀ head : Fin 6, ¬ (Lists.initial fun _ => ⟨none, none⟩).Has head 0 := by decide
    have hsecond : ∀ head : Fin 6,
        ¬ ((Lists.initial fun _ => ⟨none, none⟩).initHead 0).Has head 3 := by decide
    refine ⟨fun head h => absurd h (hfirst head), fun head h => absurd h (hsecond head),
      ⟨rfl, by decide⟩, ⟨rfl, by decide⟩, ⟨rfl, by decide⟩, ⟨rfl, by decide⟩, ⟨rfl, rfl, by decide⟩,
      rfl, Or.inl ⟨0, [4, 2, 1], rfl, by decide⟩, Or.inr (Set.mem_insert _ _), trivial⟩
  obtain ⟨heap', hrun, h, -, hloops⟩ := lists_represented _ hallowed
  obtain ⟨-, hwalks⟩ := hloops 0 [4, 2] rfl
  exact ⟨heap', hrun, h, (hwalks 6 (by decide)).1⟩

end TivaAws.Rtos
