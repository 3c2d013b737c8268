import Mathlib.Data.List.Chain
import Mathlib.Data.List.Nodup
import Mathlib.Logic.Function.Basic

/-!
# Circular doubly linked chains

A heap of cells that each point to a previous and a next cell. `join` makes one cell follow another,
and every operation on a circular chain is a few joins: `IsRing.init`, `IsRing.insert`,
`IsRing.remove` and `IsRing.splice`. A cell outside the chain is not touched.
-/

namespace TivaAws

/-- The two pointers of a cell. -/
@[ext]
structure Link (α : Type*) where
  prev : Option α
  next : Option α
  deriving DecidableEq, Repr

/-- The cells at every address. -/
abbrev LinkHeap (α : Type*) := α → Link α

variable {α : Type*} [DecidableEq α]

namespace LinkHeap

/-- Set the next pointer of a cell. -/
def setNext (a : α) (p : Option α) (heap : LinkHeap α) : LinkHeap α :=
  Function.update heap a { heap a with next := p }

/-- Set the previous pointer of a cell. -/
def setPrev (a : α) (p : Option α) (heap : LinkHeap α) : LinkHeap α :=
  Function.update heap a { heap a with prev := p }

/-- Make one cell follow another. -/
def join (a b : α) (heap : LinkHeap α) : LinkHeap α := (heap.setNext a (some b)).setPrev b (some a)

variable (a b c : α) (p : Option α) (heap : LinkHeap α)

@[simp] theorem setNext_next :
    (heap.setNext a p c).next = if c = a then p else (heap c).next := by
  unfold setNext
  by_cases h : c = a
  · rw [h, Function.update_self, if_pos rfl]
  · rw [Function.update_of_ne h, if_neg h]

@[simp] theorem setNext_prev : (heap.setNext a p c).prev = (heap c).prev := by
  unfold setNext
  by_cases h : c = a
  · rw [h, Function.update_self]
  · rw [Function.update_of_ne h]

@[simp] theorem setPrev_prev :
    (heap.setPrev a p c).prev = if c = a then p else (heap c).prev := by
  unfold setPrev
  by_cases h : c = a
  · rw [h, Function.update_self, if_pos rfl]
  · rw [Function.update_of_ne h, if_neg h]

@[simp] theorem setPrev_next : (heap.setPrev a p c).next = (heap c).next := by
  unfold setPrev
  by_cases h : c = a
  · rw [h, Function.update_self]
  · rw [Function.update_of_ne h]

theorem join_next : (heap.join a b c).next = if c = a then some b else (heap c).next := by
  rw [join, setPrev_next, setNext_next]

theorem join_prev : (heap.join a b c).prev = if c = b then some a else (heap c).prev := by
  rw [join, setPrev_prev, setNext_prev]

/-- The two pointers of a cell are written in either order. -/
theorem setPrev_setNext (q : Option α) :
    (heap.setPrev a p).setNext b q = (heap.setNext b q).setPrev a p := by
  funext c
  refine Link.ext ?_ ?_
  · rw [setNext_prev, setPrev_prev, setPrev_prev, setNext_prev]
  · rw [setNext_next, setPrev_next, setPrev_next, setNext_next]

variable {a b c heap}

/-- A cell that is not written is unchanged. -/
theorem setNext_of_ne (h : c ≠ a) : heap.setNext a p c = heap c := Function.update_of_ne h _ _

/-- A cell that is not written is unchanged. -/
theorem setPrev_of_ne (h : c ≠ a) : heap.setPrev a p c = heap c := Function.update_of_ne h _ _

/-- A cell that is not joined is unchanged. -/
theorem join_of_ne (ha : c ≠ a) (hb : c ≠ b) : heap.join a b c = heap c :=
  (setPrev_of_ne _ hb).trans (setNext_of_ne _ ha)

end LinkHeap

open LinkHeap

/-! ## Chains -/

/-- One cell follows another, and the pointers agree on it. -/
def Linked (heap : LinkHeap α) (a b : α) : Prop :=
  (heap a).next = some b ∧ (heap b).prev = some a

/-- Each cell of a list follows the one before it. -/
abbrev Chained (heap : LinkHeap α) (cells : List α) : Prop := cells.IsChain (Linked heap)

variable {heap heap' : LinkHeap α} {a b head node : α} {cells first second nodes : List α}

omit [DecidableEq α] in
/-- A chain uses the next pointers of all cells but the last and the previous pointers of all but
the first. -/
theorem Chained.congr (h : Chained heap cells)
    (hnext : ∀ c ∈ cells.dropLast, (heap' c).next = (heap c).next)
    (hprev : ∀ c ∈ cells.tail, (heap' c).prev = (heap c).prev) : Chained heap' cells := by
  induction cells with
  | nil => exact .nil
  | cons c cells ih =>
      cases cells with
      | nil => exact .singleton c
      | cons d cells =>
          obtain ⟨⟨hcd, hdc⟩, htail⟩ := List.isChain_cons_cons.mp h
          refine List.isChain_cons_cons.mpr ⟨⟨?_, ?_⟩, ih htail ?_ ?_⟩
          · exact (hnext c List.mem_cons_self).trans hcd
          · exact (hprev d List.mem_cons_self).trans hdc
          · exact fun e he => hnext e (List.mem_cons_of_mem c he)
          · exact fun e he => hprev e (List.mem_cons_of_mem d he)

/-- A join outside a chain leaves it alone. -/
theorem Chained.join (h : Chained heap cells) (ha : a ∉ cells.dropLast) (hb : b ∉ cells.tail) :
    Chained (heap.join a b) cells := by
  refine h.congr (fun c hc => ?_) (fun c hc => ?_)
  · rw [join_next, if_neg (ne_of_mem_of_not_mem hc ha)]
  · rw [join_prev, if_neg (ne_of_mem_of_not_mem hc hb)]

omit [DecidableEq α] in
/-- The first of distinct cells does not occur again. -/
theorem head_not_mem_tail (h : cells.Nodup) (ha : cells.head? = some a) : a ∉ cells.tail := by
  cases cells with
  | nil => cases ha
  | cons c cells => exact Option.some.inj ha ▸ (List.nodup_cons.mp h).1

omit [DecidableEq α] in
/-- The last of distinct cells does not occur before. -/
theorem last_not_mem_dropLast (h : cells.Nodup) (ha : cells.getLast? = some a) :
    a ∉ cells.dropLast := by
  obtain ⟨front, rfl⟩ := List.getLast?_eq_some_iff.mp ha
  rw [List.dropLast_concat]
  exact fun hmem => (List.disjoint_of_nodup_append h) hmem List.mem_cons_self

/-- A join makes one chain of two chains of distinct cells. -/
theorem Chained.append_join (hfirst : Chained heap first) (hsecond : Chained heap second)
    (hfirst_nodup : first.Nodup) (hsecond_nodup : second.Nodup)
    (hlast : first.getLast? = some a) (hhead : second.head? = some b)
    (ha : a ∉ second.dropLast) (hb : b ∉ first.tail) :
    Chained (heap.join a b) (first ++ second) := by
  have hfirst' := hfirst.join (last_not_mem_dropLast hfirst_nodup hlast) hb
  have hsecond' := hsecond.join ha (head_not_mem_tail hsecond_nodup hhead)
  refine List.isChain_append.mpr ⟨hfirst', hsecond', ?_⟩
  intro x hx y hy
  obtain rfl : a = x := Option.some.inj (hlast.symm.trans hx)
  obtain rfl : b = y := Option.some.inj (hhead.symm.trans hy)
  exact ⟨by rw [join_next, if_pos rfl], by rw [join_prev, if_pos rfl]⟩

/-! ## Rings -/

/-- The chain from a head through distinct nodes back to the head. -/
structure IsRing (heap : LinkHeap α) (head : α) (nodes : List α) : Prop where
  nodup : (head :: nodes).Nodup
  chained : Chained heap (head :: (nodes ++ [head]))

omit [DecidableEq α] in
/-- A ring depends on its own cells only. -/
theorem IsRing.frame (h : IsRing heap head nodes) (hsame : ∀ c ∈ head :: nodes, heap' c = heap c) :
    IsRing heap' head nodes := by
  have hcells : ∀ c ∈ nodes ++ [head], heap' c = heap c := by
    intro c hc
    refine hsame c ?_
    obtain hc | hc := List.mem_append.mp hc
    · exact List.mem_cons_of_mem head hc
    · exact List.mem_singleton.mp hc ▸ List.mem_cons_self
  refine ⟨h.nodup, h.chained.congr (fun c hc => ?_) fun c hc => congrArg Link.prev (hcells c hc)⟩
  obtain rfl | hc := List.mem_cons.mp (List.dropLast_subset _ hc)
  · rw [hsame _ List.mem_cons_self]
  · rw [hcells c hc]

omit [DecidableEq α] in
/-- The head points to the first node, or to itself. -/
theorem IsRing.next_head (h : IsRing heap head nodes) :
    (heap head).next = (nodes ++ [head]).head? := by
  cases nodes with
  | nil => exact (List.isChain_cons_cons.mp h.chained).1.1
  | cons a nodes => exact (List.isChain_cons_cons.mp h.chained).1.1

omit [DecidableEq α] in
/-- The head points back to the last node, or to itself. -/
theorem IsRing.prev_head (h : IsRing heap head nodes) :
    (heap head).prev = (head :: nodes).getLast? := by
  have hchain : Chained heap ((head :: nodes) ++ [head]) := h.chained
  obtain ⟨-, -, hlink⟩ := List.isChain_append.mp hchain
  obtain ⟨last, hlast⟩ := Option.isSome_iff_exists.mp
    (List.getLast?_isSome.mpr (List.cons_ne_nil head nodes))
  rw [hlast]
  exact (hlink last hlast head rfl).2

omit [DecidableEq α] in
/-- A node points to the one behind it, or to the head. -/
theorem IsRing.next_node {before after : List α} (h : IsRing heap head (before ++ node :: after)) :
    (heap node).next = (after ++ [head]).head? := by
  have hchain : Chained heap ((head :: before) ++ node :: (after ++ [head])) := by
    have hchain := h.chained
    rw [List.append_assoc] at hchain
    exact hchain
  obtain ⟨next, back, hback⟩ := List.exists_cons_of_ne_nil
    (List.append_ne_nil_of_right_ne_nil after (List.cons_ne_nil head []))
  rw [hback] at hchain ⊢
  have hnode : Chained heap (node :: next :: back) := (List.isChain_append.mp hchain).2.1
  exact (List.isChain_cons_cons.mp hnode).1.1

omit [DecidableEq α] in
/-- The nodes and the head behind them are distinct. -/
theorem IsRing.nodup_back (h : IsRing heap head nodes) : (nodes ++ [head]).Nodup :=
  List.nodup_append_comm.mp h.nodup

omit [DecidableEq α] in
/-- The nodes and the head behind them are chained. -/
theorem IsRing.chained_back (h : IsRing heap head nodes) : Chained heap (nodes ++ [head]) :=
  h.chained.tail

/-- A cell joined to itself is an empty ring. -/
theorem IsRing.init (heap : LinkHeap α) (head : α) : IsRing (heap.join head head) head [] := by
  have hnodup := List.nodup_singleton head
  have hempty : head ∉ ([] : List α) := List.not_mem_nil
  exact ⟨hnodup, Chained.append_join (.singleton head) (.singleton head) hnodup hnodup rfl rfl
    hempty hempty⟩

/-- Two joins put a cell behind the head. -/
theorem IsRing.insert {next : α} (h : IsRing heap head nodes) (hnode : node ∉ head :: nodes)
    (hnext : (heap head).next = some next) :
    IsRing ((heap.join node next).join head node) head (node :: nodes) := by
  obtain ⟨hhead, hnodes⟩ := List.nodup_cons.mp h.nodup
  obtain ⟨hne, hnode⟩ := not_or.mp (mt List.mem_cons.mpr hnode)
  have hempty : ∀ a : α, a ∉ ([] : List α) := fun _ => List.not_mem_nil
  have hback : Chained (heap.join node next) ([node] ++ (nodes ++ [head])) := by
    refine Chained.append_join (.singleton node) h.chained_back (List.nodup_singleton node)
      h.nodup_back rfl (h.next_head.symm.trans hnext) ?_ (hempty next)
    rw [List.dropLast_concat]
    exact hnode
  have hhead' : head ∉ node :: nodes :=
    fun h => (List.mem_cons.mp h).elim (fun h => hne h.symm) hhead
  have hnodup : (head :: node :: nodes).Nodup :=
    List.nodup_cons.mpr ⟨hhead', List.nodup_cons.mpr ⟨hnode, hnodes⟩⟩
  have hnodup_back : (node :: nodes ++ [head]).Nodup := List.nodup_append_comm.mp hnodup
  refine ⟨hnodup, Chained.append_join (.singleton head) hback (List.nodup_singleton head)
    hnodup_back rfl rfl ?_ (hempty node)⟩
  show head ∉ ((node :: nodes) ++ [head]).dropLast
  rw [List.dropLast_concat]
  exact hhead'

omit [DecidableEq α] in
/-- The links between two parts of a ring. -/
theorem IsRing.between {before after : List α} {prev next : α}
    (h : IsRing heap head (before ++ after)) (hprev : (head :: before).getLast? = some prev)
    (hnext : (after ++ [head]).head? = some next) : Linked heap prev next := by
  have hchain : Chained heap ((head :: before) ++ (after ++ [head])) := by
    have hchain := h.chained
    rw [List.append_assoc] at hchain
    exact hchain
  exact (List.isChain_append.mp hchain).2.2 prev hprev next hnext

/-- Two joins put a cell between two parts of a ring. -/
theorem IsRing.insert_between {before after : List α} {prev next : α}
    (h : IsRing heap head (before ++ after)) (hnode : node ∉ head :: (before ++ after))
    (hprev : (head :: before).getLast? = some prev) (hnext : (after ++ [head]).head? = some next) :
    IsRing ((heap.join node next).join prev node) head (before ++ node :: after) := by
  have hchain : Chained heap ((head :: before) ++ (after ++ [head])) := by
    have hchain := h.chained
    rw [List.append_assoc] at hchain
    exact hchain
  obtain ⟨hbefore, hafter, -⟩ := List.isChain_append.mp hchain
  have hnodup : ((head :: before) ++ after).Nodup := h.nodup
  obtain ⟨hnodup_before, hnodup_after, hapart⟩ := List.nodup_append'.mp hnodup
  have hnode_before : node ∉ head :: before := fun hmem => hnode (by
    rw [← List.cons_append]
    exact List.mem_append_left after hmem)
  have hnode_after : node ∉ after := fun hmem => hnode (by
    rw [← List.cons_append]
    exact List.mem_append_right (head :: before) hmem)
  have hnode_head : node ≠ head := fun heq => hnode_before (heq ▸ List.mem_cons_self)
  have hnodup_all : ((head :: before) ++ node :: after).Nodup := by
    refine List.nodup_append'.mpr ⟨hnodup_before, List.nodup_cons.mpr ⟨hnode_after, hnodup_after⟩,
      fun c hc hc' => ?_⟩
    rcases List.mem_cons.mp hc' with rfl | hc'
    · exact hnode_before hc
    · exact hapart hc hc'
  have hhead_after : head ∉ after := hapart List.mem_cons_self
  have hback_nodup : (after ++ [head]).Nodup := List.nodup_append_comm.mp
    (List.nodup_cons.mpr ⟨hhead_after, hnodup_after⟩)
  have hempty : ∀ a : α, a ∉ ([] : List α) := fun _ => List.not_mem_nil
  have hprev_mem : prev ∈ head :: before := List.mem_of_getLast? hprev
  have hnext_mem : next ∈ after ++ [head] := List.mem_of_head? hnext
  -- The cell is joined to the part behind it, and then to the part before it.
  have hback : Chained (heap.join node next) ([node] ++ (after ++ [head])) := by
    refine Chained.append_join (.singleton node) hafter (List.nodup_singleton node) hback_nodup rfl
      hnext ?_ (hempty next)
    rw [List.dropLast_concat]
    exact hnode_after
  have hfront : Chained (heap.join node next) (head :: before) := by
    refine Chained.join hbefore (fun hmem => hnode_before (List.dropLast_subset _ hmem))
      fun hmem => ?_
    rcases List.mem_append.mp hnext_mem with hin | hin
    · exact hapart (List.mem_cons_of_mem head hmem) hin
    · exact (List.nodup_cons.mp hnodup_before).1 (List.mem_singleton.mp hin ▸ hmem)
  have hcells : (node :: (after ++ [head])).Nodup := by
    refine List.nodup_cons.mpr ⟨fun hmem => ?_, hback_nodup⟩
    rcases List.mem_append.mp hmem with hin | hin
    · exact hnode_after hin
    · exact hnode_head (List.mem_singleton.mp hin)
  refine ⟨hnodup_all, ?_⟩
  rw [List.append_assoc]
  refine Chained.append_join hfront hback hnodup_before hcells hprev rfl ?_ ?_
  · show prev ∉ ((node :: after) ++ [head]).dropLast
    rw [List.dropLast_concat]
    intro hmem
    rcases List.mem_cons.mp hmem with rfl | hmem
    · exact hnode_before hprev_mem
    · exact hapart hprev_mem hmem
  · exact fun hmem => hnode_before (List.mem_cons_of_mem head hmem)

/-- A join across a node takes it out. -/
theorem IsRing.remove {before after : List α} (h : IsRing heap head (before ++ node :: after)) :
    ∃ prev next, (heap node).prev = some prev ∧ (heap node).next = some next ∧
      prev ∈ head :: before ∧ next ∈ after ++ [head] ∧
      IsRing (heap.join prev next) head (before ++ after) := by
  have hchain : Chained heap ((head :: before) ++ node :: (after ++ [head])) := by
    have hchain := h.chained
    rw [List.append_assoc] at hchain
    exact hchain
  obtain ⟨hbefore, hnode_after, hlink⟩ := List.isChain_append.mp hchain
  obtain ⟨hafter, hlink'⟩ : Chained heap (after ++ [head]) ∧
      ∀ next ∈ (after ++ [head]).head?, Linked heap node next := by
    have hcons : Chained heap ([node] ++ (after ++ [head])) := hnode_after
    obtain ⟨-, hafter, hlink⟩ := List.isChain_append.mp hcons
    exact ⟨hafter, hlink node rfl⟩
  -- The neighbours are the last node in front of the removed one and the first one behind it.
  obtain ⟨prev, hprev⟩ := Option.isSome_iff_exists.mp
    (List.getLast?_isSome.mpr (List.cons_ne_nil head before))
  obtain ⟨next, back, hback⟩ := List.exists_cons_of_ne_nil
    (List.append_ne_nil_of_right_ne_nil after (List.cons_ne_nil head []))
  have hnext : (after ++ [head]).head? = some next := congrArg List.head? hback
  have hprev_mem : prev ∈ head :: before := List.mem_of_getLast? hprev
  have hnext_mem : next ∈ after ++ [head] := List.mem_of_head? hnext
  have hnodup : ((head :: before) ++ node :: after).Nodup := h.nodup
  have hnodup_out : ((head :: before) ++ after).Nodup :=
    hnodup.sublist (List.Sublist.append_left (List.sublist_cons_self node after) _)
  obtain ⟨hhead, hnodup_nodes⟩ := List.nodup_cons.mp hnodup_out
  have hhead_after : head ∉ after := fun h => hhead (List.mem_append_right before h)
  have hnodup_back : (after ++ [head]).Nodup := List.nodup_append_comm.mp
    (List.nodup_cons.mpr ⟨hhead_after, (List.nodup_append'.mp hnodup_nodes).2.1⟩)
  have hprev_after : prev ∉ (after ++ [head]).dropLast := by
    rw [List.dropLast_concat]
    exact List.disjoint_of_nodup_append hnodup_out hprev_mem
  have hnext_before : next ∉ before := by
    obtain hafter | hnext_head := List.mem_append.mp hnext_mem
    · exact fun hbefore => List.disjoint_of_nodup_append hnodup_nodes hbefore hafter
    · rw [List.mem_singleton.mp hnext_head]
      exact fun h => hhead (List.mem_append_left after h)
  refine ⟨prev, next, (hlink prev hprev node rfl).2, (hlink' next hnext).1, hprev_mem, hnext_mem,
    hnodup_out, ?_⟩
  rw [List.append_assoc]
  exact Chained.append_join hbefore hafter (List.nodup_append'.mp hnodup_out).1 hnodup_back hprev
    hnext hprev_after hnext_before

/-- Two joins put the nodes of one ring behind the head of another. -/
theorem IsRing.splice {other last next first : α} {others : List α} (h : IsRing heap head nodes)
    (hother : IsRing heap other others) (hdisjoint : ∀ c ∈ others, c ∉ head :: nodes)
    (hlast : others.getLast? = some last) (hnext : (heap head).next = some next)
    (hfirst : others.head? = some first) :
    IsRing ((heap.join last next).join head first) head (others ++ nodes) := by
  obtain ⟨hhead, hnodes⟩ := List.nodup_cons.mp h.nodup
  obtain ⟨-, hothers⟩ := List.nodup_cons.mp hother.nodup
  have hnext_back : (nodes ++ [head]).head? = some next := h.next_head.symm.trans hnext
  have hchained : Chained heap others := (List.isChain_append.mp hother.chained_back).1
  have hlast_nodes : last ∉ (nodes ++ [head]).dropLast := by
    rw [List.dropLast_concat]
    exact fun hmem => hdisjoint last (List.mem_of_getLast? hlast) (List.mem_cons_of_mem head hmem)
  have hnext_others : next ∉ others.tail := by
    intro hmem
    refine hdisjoint next (List.mem_of_mem_tail hmem) ?_
    obtain hmem | hmem := List.mem_append.mp (List.mem_of_head? hnext_back)
    · exact List.mem_cons_of_mem head hmem
    · exact List.mem_singleton.mp hmem ▸ List.mem_cons_self
  have hback : Chained (heap.join last next) (others ++ (nodes ++ [head])) :=
    Chained.append_join hchained h.chained_back hothers h.nodup_back hlast hnext_back hlast_nodes
      hnext_others
  have hhead_others : head ∉ others ++ nodes := by
    intro hmem
    obtain hmem | hmem := List.mem_append.mp hmem
    · exact hdisjoint head hmem List.mem_cons_self
    · exact hhead hmem
  have hnodup_nodes : (others ++ nodes).Nodup := List.nodup_append'.mpr
    ⟨hothers, hnodes, fun c hc hmem => hdisjoint c hc (List.mem_cons_of_mem head hmem)⟩
  have hnodup :
      (head :: (others ++ nodes)).Nodup := List.nodup_cons.mpr ⟨hhead_others, hnodup_nodes⟩
  have hfirst_back : (others ++ nodes ++ [head]).head? = some first := by
    obtain ⟨rest, rfl⟩ := List.head?_eq_some_iff.mp hfirst
    rfl
  rw [← List.append_assoc] at hback
  refine ⟨hnodup, Chained.append_join (.singleton head) hback (List.nodup_singleton head)
    (List.nodup_append_comm.mp hnodup) rfl hfirst_back ?_ List.not_mem_nil⟩
  show head ∉ ((others ++ nodes) ++ [head]).dropLast
  rw [List.dropLast_concat]
  exact hhead_others

end TivaAws
