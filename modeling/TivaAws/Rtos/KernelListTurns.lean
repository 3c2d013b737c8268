import TivaAws.Rtos.KernelListRuns

/-!
# Turns and order in the kernel's lists

What the callers of `list.c` rely on over whole runs: tasks that share a list take turns, and a list
whose items are inserted by value is in order.
-/

namespace TivaAws.Rtos.Kernel

open Runs

variable {α : Type*} [DecidableEq α]

variable {m m' : ListMemory α} {s : Lists α} {l l' : Items α} {pxList x c : α} {cells : List α}

/-! ## Fairness -/

theorem sublist_erase_of_ne {items : List α} {d : α} (h : [d, c].Sublist items)
    (hd : d ≠ x) (hc : c ≠ x) : [d, c].Sublist (items.erase x) := by
  have herase := h.erase x
  rwa [List.erase_of_not_mem (by simp [Ne.symm hd, Ne.symm hc])] at herase

/-- Of two items the one whose turn comes first has it, or is still the first of the two. -/
theorem turns_step {s s' : Answered (Lists α) α} {m : Answered (ListMemory α) α}
    {event : ListEvent α} {d : α} (h : Refines s m) (hallowed : Lists.Allowed s event)
    (hstep : Lists.step s event = some s') (hl : s.state.lists pxList = some l)
    (hturns : [d, c].Sublist l.turns) (hc : event ≠ .remove c) (hd : event ≠ .remove d) :
    (event = .getNext pxList ∧ s'.answers.head? = some (.entry d)) ∨
      ∃ l', s'.state.lists pxList = some l' ∧ [d, c].Sublist l'.turns := by
  obtain ⟨hrep, -⟩ := h
  have hlist := hrep.isList pxList l hl
  have hnodup_items := (List.nodup_cons.mp hlist.ring.nodup).2
  have hother : ∀ {other k}, other ≠ pxList →
      (s.state.set other k).lists pxList = some l := fun hne =>
    (s.state.set_other _ (Ne.symm hne)).trans hl
  -- Only an operation on this list can change its turns, and it keeps the order of the items that
  -- stay.
  cases event with
  | initialise other =>
      cases hstep
      have hne : other ≠ pxList := by
        rintro rfl
        cases hallowed.1.symm.trans hl
      exact Or.inr ⟨l, hother hne, hturns⟩
  | initialiseItem x =>
      cases hstep
      exact Or.inr ⟨l, hl, hturns⟩
  | setValue x xValue =>
      cases hstep
      exact Or.inr ⟨l, hl, hturns⟩
  | insertEnd other x =>
      obtain ⟨k, hk, hset⟩ := Option.bind_eq_some_iff.mp hstep
      cases hset
      by_cases hne : other = pxList
      · subst hne
        cases hl.symm.trans hk
        have hx : x ≠ l.index := fun heq => hrep.apart_free hl hallowed.2 (heq ▸ hlist.walk)
        exact Or.inr ⟨_, s.state.set_self _ _, hturns.trans
          (turns_insert List.takeWhile_append_dropWhile.symm rfl rfl hx)⟩
      · exact Or.inr ⟨l, hother hne, hturns⟩
  | insert other x =>
      obtain ⟨k, hk, hset⟩ := Option.bind_eq_some_iff.mp hstep
      cases hset
      by_cases hne : other = pxList
      · subst hne
        cases hl.symm.trans hk
        have hx : x ≠ l.index := fun heq => hrep.apart_free hl hallowed.2 (heq ▸ hlist.walk)
        exact Or.inr ⟨_, s.state.set_self _ _, hturns.trans
          (turns_insert List.takeWhile_append_dropWhile.symm rfl rfl hx)⟩
      · exact Or.inr ⟨l, hother hne, hturns⟩
  | remove x =>
      obtain ⟨other, hx, hset⟩ := Option.bind_eq_some_iff.mp hstep
      obtain ⟨k, hk, hset⟩ := Option.bind_eq_some_iff.mp hset
      cases hset
      by_cases hne : other = pxList
      · subst hne
        cases hl.symm.trans hk
        obtain ⟨k, hk, hmem⟩ := (hrep.contained x other).mp (Option.join_eq_some_iff.mp hx)
        cases hl.symm.trans hk
        refine Or.inr ⟨_, s.state.set_self _ _, ?_⟩
        rw [turns_remove (List.nodup_cons.mp hlist.ring.nodup).1 hnodup_items hmem]
        exact sublist_erase_of_ne hturns (fun heq => hd (heq ▸ rfl)) fun heq => hc (heq ▸ rfl)
      · exact Or.inr ⟨l, hother hne, hturns⟩
  | getNext other =>
      obtain ⟨k, hk, hset⟩ := Option.bind_eq_some_iff.mp hstep
      obtain ⟨first, hfirst, hset⟩ := Option.bind_eq_some_iff.mp hset
      cases hset
      by_cases hne : other = pxList
      · subst hne
        cases hl.symm.trans hk
        obtain ⟨rest, hrest⟩ := List.head?_eq_some_iff.mp hfirst
        -- The item in front takes its turn and goes to the end.
        by_cases heq : first = d
        · exact Or.inl ⟨rfl, congrArg (fun x => some (ListAnswer.entry x)) heq⟩
        · have hbehind : [d, c].Sublist rest := by
            rw [hrest] at hturns
            exact (List.sublist_cons_iff.mp hturns).resolve_right fun ⟨_, hcons, _⟩ =>
              heq (List.cons.inj hcons).1.symm
          refine Or.inr ⟨_, s.state.set_self _ _, ?_⟩
          rw [turns_next hnodup_items hrest]
          exact hbehind.trans (List.sublist_append_left rest [first])
      · exact Or.inr ⟨l, hother hne, hturns⟩

/-- The item whose turn comes first has it before the other one does, by induction on the events. -/
theorem turn_between {s : Answered (Lists α) α} {m m' : Answered (ListMemory α) α}
    {later : List (ListEvent α)} {d : α} (h : Refines s m)
    (hmet : Met Lists.step Lists.Allowed s (later ++ [.getNext pxList]))
    (hl : s.state.lists pxList = some l) (hturns : [d, c].Sublist l.turns)
    (hc : .remove c ∉ later) (hd : .remove d ∉ later)
    (hrun : run ListMemory.step (later ++ [.getNext pxList]) m = some m')
    (hback : m'.answers.head? = some (.entry c)) :
    ∃ before after m'', later = before ++ .getNext pxList :: after ∧
      run ListMemory.step (before ++ [.getNext pxList]) m = some m'' ∧
      m''.answers.head? = some (.entry d) := by
  induction later generalizing s m l with
  | nil =>
      -- The turn cannot be the other item's yet.
      obtain ⟨s', next, hstep, hnext, hrefines⟩ := step_refines h hmet.1
      obtain rfl : next = m' := by
        rw [List.nil_append, run, hnext] at hrun
        exact Option.some.inj hrun
      have hlist := h.1.isList pxList l hl
      have hnodup : l.turns.Nodup :=
        (turns_perm l).nodup_iff.mpr (List.nodup_cons.mp hlist.ring.nodup).2
      obtain ⟨k, hk, hset⟩ := Option.bind_eq_some_iff.mp hstep
      obtain ⟨first, hfirst, hset⟩ := Option.bind_eq_some_iff.mp hset
      cases hl.symm.trans hk
      cases hset
      rw [hrefines.2] at hback
      cases hback
      obtain ⟨rest, hrest⟩ := List.head?_eq_some_iff.mp hfirst
      rw [hrest] at hturns hnodup
      rcases List.sublist_cons_iff.mp hturns with hin | ⟨_, hcons, hin⟩
      · exact absurd (hin.subset (by simp)) (List.nodup_cons.mp hnodup).1
      · cases hcons
        exact absurd (hin.subset (by simp)) (List.nodup_cons.mp hnodup).1
  | cons event rest ih =>
      obtain ⟨s', next, hstep, hnext, hrefines⟩ := step_refines h hmet.1
      have hevent : run ListMemory.step (event :: (rest ++ [.getNext pxList])) m =
          run ListMemory.step (rest ++ [.getNext pxList]) next := by
        rw [run, hnext]
        rfl
      rw [List.cons_append, hevent] at hrun
      rcases turns_step h hmet.1 hstep hl hturns (fun heq => hc (heq ▸ List.mem_cons_self))
        (fun heq => hd (heq ▸ List.mem_cons_self)) with ⟨rfl, hanswer⟩ | ⟨l', hl', hturns'⟩
      · refine ⟨[], rest, next, rfl, ?_, hrefines.2 ▸ hanswer⟩
        rw [List.nil_append, run, hnext]
        rfl
      · obtain ⟨before, after, m'', hrest, hrun'', hanswer⟩ := ih hrefines (hmet.2 s' hstep) hl'
          hturns' (fun hin => hc (List.mem_cons_of_mem event hin))
          (fun hin => hd (List.mem_cons_of_mem event hin)) hrun
        refine ⟨event :: before, after, m'', by rw [hrest]; rfl, ?_, hanswer⟩
        rw [List.cons_append, run, hnext]
        exact hrun''

/-- Between two turns of an item every other item has its turn, whatever else happens to the list,
if the two stay in it. -/
theorem next_fair (m : ListMemory α) (first later : List (ListEvent α)) (pxList c d : α)
    (s : Answered (Lists α) α) (m₁ m₂ : Answered (ListMemory α) α)
    (hbounded : ∀ x, m.xItemValue x ≤ portMaxDelay)
    (hmet : Met Lists.step Lists.Allowed ⟨Lists.start m.xItemValue, []⟩
      (first ++ [.getNext pxList] ++ (later ++ [.getNext pxList])))
    (hfirst : run Lists.step (first ++ [.getNext pxList]) ⟨Lists.start m.xItemValue, []⟩ = some s)
    (hfirst' : run ListMemory.step (first ++ [.getNext pxList]) ⟨m, []⟩ = some m₁)
    (hc : m₁.answers.head? = some (.entry c))
    (hd : s.state.container d = some (some pxList)) (hne : d ≠ c)
    (hcstays : .remove c ∉ later) (hdstays : .remove d ∉ later)
    (hlater : run ListMemory.step (later ++ [.getNext pxList]) m₁ = some m₂)
    (hback : m₂.answers.head? = some (.entry c)) :
    ∃ before after m', later = before ++ .getNext pxList :: after ∧
      run ListMemory.step (before ++ [.getNext pxList]) m₁ = some m' ∧
      m'.answers.head? = some (.entry d) := by
  have hstart : Refines ⟨Lists.start m.xItemValue, []⟩ ⟨m, []⟩ :=
    ⟨Represents.start m hbounded, rfl⟩
  -- The state before the first turn, and the turn.
  obtain ⟨s₀, m₀, hrun, hrun', hrefines⟩ :=
    simulate_of_met Refines hstart hmet.before.before step_refines
  have hmet' := hmet.before.after hrun
  obtain ⟨s', m', hstep, hstep', hrefines'⟩ := step_refines hrefines hmet'.1
  obtain rfl : s' = s := by
    rw [run_append, hrun, Option.bind_some, run, hstep] at hfirst
    exact Option.some.inj hfirst
  obtain rfl : m' = m₁ := by
    rw [run_append, hrun', Option.bind_some, run, hstep'] at hfirst'
    exact Option.some.inj hfirst'
  obtain ⟨l, hl, hset⟩ := Option.bind_eq_some_iff.mp hstep
  obtain ⟨entry, hentry, hset⟩ := Option.bind_eq_some_iff.mp hset
  cases hset
  rw [hrefines'.2] at hc
  cases hc
  obtain ⟨rest, hrest⟩ := List.head?_eq_some_iff.mp hentry
  have hl' := s₀.state.set_self pxList l.next
  have hlist := hrefines.1.isList pxList l hl
  have hnext := turns_next (List.nodup_cons.mp hlist.ring.nodup).2 hrest
  -- The item that has had its turn comes last.
  have hturns : [d, c].Sublist l.next.turns := by
    obtain ⟨k, hk, hmem⟩ := (hrefines'.1.contained d pxList).mp hd
    cases hl'.symm.trans hk
    have hmem_turns : d ∈ l.turns := (turns_perm l).mem_iff.mpr hmem
    rw [hrest] at hmem_turns
    rw [hnext]
    exact (List.singleton_sublist.mpr ((List.mem_cons.mp hmem_turns).resolve_left hne)).append_right
      [c]
  exact turn_between hrefines' (hmet.after hfirst) hl' hturns hcstays hdstays hlater hback

/-- Item 2 has its turn, item 3 comes to the list, and all three have theirs. -/
def benchTurn : List (ListEvent ℕ) :=
  [.initialise 10, .initialiseItem 1, .initialiseItem 2, .insertEnd 10 2, .insertEnd 10 1]

def benchTurns : List (ListEvent ℕ) :=
  [.initialiseItem 3, .insertEnd 10 3, .getNext 10, .getNext 10]

def afterTurn : Answered (ListMemory ℕ) ℕ :=
  (run ListMemory.step (benchTurn ++ [.getNext 10]) ⟨benchMemory, []⟩).getD ⟨benchMemory, []⟩

theorem next_fair_bench : ∃ before after m', benchTurns = before ++ .getNext 10 :: after ∧
    run ListMemory.step (before ++ [.getNext 10]) afterTurn = some m' ∧
    m'.answers.head? = some (.entry 1) :=
  next_fair benchMemory benchTurn benchTurns 10 2 1
    ((run Lists.step (benchTurn ++ [.getNext 10]) ⟨Lists.start benchMemory.xItemValue, []⟩).getD
      ⟨Lists.start benchMemory.xItemValue, []⟩)
    afterTurn ((run ListMemory.step (benchTurns ++ [.getNext 10]) afterTurn).getD afterTurn)
    (fun _ => Nat.zero_le _) (by decide) rfl rfl (by decide) (by decide) (by decide) (by decide)
    (by decide) rfl (by decide)

/-! ## Order -/

/-- Smaller values come first, and of equal values the one that was inserted first. -/
def Lists.Before (s : Lists α) (a b : α) : Prop :=
  s.value a < s.value b ∨ s.value a = s.value b ∧ s.inserted a < s.inserted b

/-- The items of a list are only inserted by value, and keep their values while they are in it. -/
def ByValue (pxList : α) (s : Answered (Lists α) α) : ListEvent α → Prop
  | .insertEnd other _ => other ≠ pxList
  | .setValue x _ => s.state.container x ≠ some (some pxList)
  | _ => True

instance (pxList : α) (s : Answered (Lists α) α) :
    (event : ListEvent α) → Decidable (ByValue pxList s event)
  | .insertEnd other _ => inferInstanceAs (Decidable (other ≠ pxList))
  | .setValue x _ => inferInstanceAs (Decidable (s.state.container x ≠ some (some pxList)))
  | .initialise _ | .initialiseItem _ | .insert _ _ | .remove _ | .getNext _ => isTrue trivial

/-- A list is in order, and the next number is larger than those of its items. -/
def InOrder (pxList : α) (s : Lists α) : Prop :=
  ∀ l, s.lists pxList = some l → l.items.Pairwise s.Before ∧
    ∀ a ∈ l.items, s.inserted a < s.insertions

omit [DecidableEq α] in
/-- Items with their values and numbers stay in order. -/
theorem order_congr {s s' : Lists α} {items : List α} (h : items.Pairwise s.Before)
    (hsame : ∀ a ∈ items, s'.value a = s.value a ∧ s'.inserted a = s.inserted a) :
    items.Pairwise s'.Before := by
  refine h.imp_of_mem fun {a b} ha hb hbefore => ?_
  unfold Lists.Before
  rw [(hsame a ha).1, (hsame b hb).1, (hsame a ha).2, (hsame b hb).2]
  exact hbefore

/-- Where an item is inserted by its value, those before it have values up to its own and those
behind it larger ones. -/
theorem order_insert {s : Lists α} (h : l.items.Pairwise s.Before)
    (hnumbers : ∀ a ∈ l.items, s.inserted a < s.insertions) (hx : x ∉ l.items) :
    (l.insert s.value x).items.Pairwise (s.number x).Before := by
  have hsame : ∀ a ∈ l.items, (s.number x).value a = s.value a ∧
      (s.number x).inserted a = s.inserted a := fun a ha =>
    ⟨rfl, Function.update_of_ne (ne_of_mem_of_not_mem ha hx) _ _⟩
  have hnew : (s.number x).inserted x = s.insertions := Function.update_self _ _ _
  have hparts := List.takeWhile_append_dropWhile (p := (s.value · ≤ s.value x)) (l := l.items)
  have hold := order_congr h hsame
  rw [← hparts] at hold
  obtain ⟨hfront, hback, hacross⟩ := List.pairwise_append.mp hold
  have hlarger : ∀ b ∈ l.items.dropWhile (s.value · ≤ s.value x), s.value x < s.value b := by
    intro b hb
    cases hdrop : l.items.dropWhile (s.value · ≤ s.value x) with
    | nil =>
        rw [hdrop] at hb
        exact absurd hb List.not_mem_nil
    | cons first rest =>
        have hfirst : s.value x < s.value first := by
          have hne : l.items.dropWhile (s.value · ≤ s.value x) ≠ [] :=
            hdrop ▸ List.cons_ne_nil first rest
          have hstop := List.head_dropWhile_not (s.value · ≤ s.value x) hne
          simp only [hdrop, List.head_cons, decide_eq_false_iff_not, Nat.not_le] at hstop
          exact hstop
        rw [hdrop] at hb hback
        rcases List.mem_cons.mp hb with rfl | hb
        · exact hfirst
        · rcases (List.pairwise_cons.mp hback).1 b hb with hlt | ⟨heq, -⟩
          · exact hfirst.trans hlt
          · exact heq ▸ hfirst
  refine List.pairwise_append.mpr ⟨hfront, List.pairwise_cons.mpr ⟨fun b hb => ?_, hback⟩,
    fun a ha b hb => ?_⟩
  · exact Or.inl (hlarger b hb)
  · have hain : a ∈ l.items := List.takeWhile_subset _ ha
    rcases List.mem_cons.mp hb with rfl | hb
    · have hle := List.mem_takeWhile_imp (p := (s.value · ≤ s.value b)) ha
      rcases Nat.lt_or_eq_of_le (of_decide_eq_true hle) with hlt | heq
      · exact Or.inl hlt
      · exact Or.inr ⟨heq, by rw [hnew, (hsame a hain).2]; exact hnumbers a hain⟩
    · exact hacross a ha b hb

theorem order_step {s s' : Answered (Lists α) α} {m : Answered (ListMemory α) α}
    {event : ListEvent α} (h : Refines s m) (hallowed : Lists.Allowed s event)
    (hvalue : ByValue pxList s event) (hstep : Lists.step s event = some s')
    (horder : InOrder pxList s.state) : InOrder pxList s'.state := by
  obtain ⟨hrep, -⟩ := h
  have hother : ∀ {other k l}, other ≠ pxList → (s.state.set other k).lists pxList = some l →
      s.state.lists pxList = some l := fun hne hl =>
    (s.state.set_other _ (Ne.symm hne)).symm.trans hl
  have hself : ∀ {k l}, (s.state.set pxList k).lists pxList = some l → k = l := fun hl =>
    Option.some.inj ((s.state.set_self pxList _).symm.trans hl)
  -- What a new number for an item of another list leaves.
  have hnumber : ∀ {x l}, s.state.lists pxList = some l → s.state.container x = some none →
      l.items.Pairwise (s.state.number x).Before ∧
        ∀ a ∈ l.items, (s.state.number x).inserted a < (s.state.number x).insertions := by
    intro x l hl hx
    obtain ⟨hpairs, hnumbers⟩ := horder l hl
    have hfree := hrep.apart_free hl hx
    have hsame : ∀ a ∈ l.items, (s.state.number x).inserted a = s.state.inserted a := fun a ha =>
      Function.update_of_ne (fun heq : a = x => hfree (heq ▸ List.mem_cons_of_mem pxList ha)) _ _
    exact ⟨order_congr hpairs fun a ha => ⟨rfl, hsame a ha⟩, fun a ha =>
      (hsame a ha).trans_lt (Nat.lt_succ_of_lt (hnumbers a ha))⟩
  cases event with
  | initialise other =>
      cases hstep
      intro l hl
      by_cases hne : other = pxList
      · subst hne
        obtain rfl := hself hl
        exact ⟨List.Pairwise.nil, List.forall_mem_nil _⟩
      · have hold := hother hne hl
        obtain ⟨hpairs, hnumbers⟩ := horder l hold
        refine ⟨order_congr hpairs fun a ha => ⟨Function.update_of_ne ?_ _ _, rfl⟩, hnumbers⟩
        rintro rfl
        cases hallowed.2.symm.trans ((hrep.contained a pxList).mpr ⟨l, hold, ha⟩)
  | initialiseItem x =>
      cases hstep
      exact horder
  | setValue x xValue =>
      cases hstep
      intro l hl
      obtain ⟨hpairs, hnumbers⟩ := horder l hl
      refine ⟨order_congr hpairs fun a ha => ⟨Function.update_of_ne ?_ _ _, rfl⟩, hnumbers⟩
      rintro rfl
      exact hvalue ((hrep.contained a pxList).mpr ⟨l, hl, ha⟩)
  | insertEnd other x =>
      obtain ⟨k, hk, hset⟩ := Option.bind_eq_some_iff.mp hstep
      cases hset
      exact fun l hl => hnumber (hother hvalue hl) hallowed.2
  | insert other x =>
      obtain ⟨k, hk, hset⟩ := Option.bind_eq_some_iff.mp hstep
      cases hset
      intro l hl
      by_cases hne : other = pxList
      · subst hne
        obtain rfl := hself hl
        obtain ⟨hpairs, hnumbers⟩ := horder k hk
        have hx : x ∉ k.items := fun hmem =>
          hrep.apart_free hk hallowed.2 (List.mem_cons_of_mem other hmem)
        refine ⟨order_insert hpairs hnumbers hx, fun a ha => ?_⟩
        show Function.update s.state.inserted x s.state.insertions a < s.state.insertions + 1
        by_cases heq : a = x
        · rw [heq, Function.update_self]
          exact Nat.lt_succ_self _
        · rw [Function.update_of_ne heq]
          have hin := (k.insert_perm s.state.value x).mem_iff.mp ha
          exact Nat.lt_succ_of_lt (hnumbers a ((List.mem_cons.mp hin).resolve_left heq))
      · exact hnumber (hother hne hl) hallowed.2
  | remove x =>
      obtain ⟨other, hx, hset⟩ := Option.bind_eq_some_iff.mp hstep
      obtain ⟨k, hk, hset⟩ := Option.bind_eq_some_iff.mp hset
      cases hset
      intro l hl
      by_cases hne : other = pxList
      · subst hne
        obtain rfl := hself hl
        obtain ⟨hpairs, hnumbers⟩ := horder k hk
        exact ⟨hpairs.sublist List.erase_sublist, fun a ha =>
          hnumbers a (List.mem_of_mem_erase ha)⟩
      · exact horder l (hother hne hl)
  | getNext other =>
      obtain ⟨k, hk, hset⟩ := Option.bind_eq_some_iff.mp hstep
      obtain ⟨first, hfirst, hset⟩ := Option.bind_eq_some_iff.mp hset
      cases hset
      intro l hl
      by_cases hne : other = pxList
      · subst hne
        obtain rfl := hself hl
        exact horder k hk
      · exact horder l (hother hne hl)

/-- A list whose items are inserted by value only is always in order, those with equal values in the
order of their insertions, and its head entry is the first of them. -/
theorem sorted_by_value (m : ListMemory α) (events : List (ListEvent α)) (pxList : α)
    (hbounded : ∀ c, m.xItemValue c ≤ portMaxDelay)
    (hmet : Met Lists.step (fun s event => Lists.Allowed s event ∧ ByValue pxList s event)
      ⟨Lists.start m.xItemValue, []⟩ events) :
    ∃ s m', run Lists.step events ⟨Lists.start m.xItemValue, []⟩ = some s ∧
      run ListMemory.step events ⟨m, []⟩ = some m' ∧
      ∀ l, s.state.lists pxList = some l → IsList m'.state pxList l ∧
        m'.state.xItemValue = s.state.value ∧ l.items.Pairwise s.state.Before ∧
        listGetHeadEntry pxList m'.state = (l.items ++ [pxList]).head? := by
  have hstart : Refines ⟨Lists.start m.xItemValue, []⟩ ⟨m, []⟩ ∧
      InOrder pxList (Lists.start m.xItemValue) :=
    ⟨⟨Represents.start m hbounded, rfl⟩, fun l hl => by cases hl⟩
  obtain ⟨s, m', hrun, hrun', hrefines, horder⟩ :=
    simulate_of_met (fun s m => Refines s m ∧ InOrder pxList s.state) hstart hmet
      fun hrel hallowed => by
        obtain ⟨s', m', hstep, hstep', hrefines⟩ := step_refines hrel.1 hallowed.1
        exact ⟨s', m', hstep, hstep', hrefines,
          order_step hrel.1 hallowed.1 hallowed.2 hstep hrel.2⟩
  refine ⟨s, m', hrun, hrun', fun l hl => ?_⟩
  have hlist := hrefines.1.isList pxList l hl
  exact ⟨hlist, hrefines.1.value, (horder l hl).1, hlist.ring.next_head⟩

/-- Two items have the same value, and one that has a smaller value comes last. -/
def benchValues : List (ListEvent ℕ) :=
  [.initialise 10, .initialiseItem 1, .initialiseItem 2, .initialiseItem 3, .setValue 1 5,
    .setValue 2 5, .setValue 3 4, .insert 10 2, .insert 10 1, .insert 10 3]

theorem sorted_by_value_bench : ∃ s m',
    run Lists.step benchValues ⟨Lists.start benchMemory.xItemValue, []⟩ = some s ∧
      run ListMemory.step benchValues ⟨benchMemory, []⟩ = some m' ∧
      ∀ l, s.state.lists 10 = some l → IsList m'.state 10 l ∧
        m'.state.xItemValue = s.state.value ∧ l.items.Pairwise s.state.Before ∧
        listGetHeadEntry 10 m'.state = (l.items ++ [10]).head? :=
  sorted_by_value benchMemory benchValues 10 (fun _ => Nat.zero_le _) (by decide)

end TivaAws.Rtos.Kernel
