import Mathlib.Algebra.Group.Nat.Defs
import Mathlib.Data.List.Count
import TivaAws.Foundation.Labelled

/-!
# Lifetimes of resources

A program acquires resources, uses them and releases them. Over a list of such actions, `live`
computes what has been acquired and not yet released. A list is safe if it acquires only what is
not live and uses and releases only what is live. In a safe list what is acquired is released as
often, except for what stays live at the end (`count_release`), so a resource that is acquired
once and is not live at the end has been released exactly once.
-/

namespace TivaAws.Lifetime

open Labelled

variable {α : Type*}

/-- What a program does with a resource. -/
inductive Action (α : Type*) where
  | acquire (x : α)
  | use (x : α)
  | release (x : α)
  deriving DecidableEq

variable [DecidableEq α]

/-- The live resources after an action. -/
def live (resources : List α) : Action α → List α
  | .acquire x => x :: resources
  | .use _ => resources
  | .release x => resources.erase x

/-- What a program may do while some resources are live. -/
def Permitted (resources : List α) : Action α → Prop
  | .acquire x => x ∉ resources
  | .use x => x ∈ resources
  | .release x => x ∈ resources

instance (resources : List α) : (action : Action α) → Decidable (Permitted resources action)
  | .acquire x => inferInstanceAs (Decidable (x ∉ resources))
  | .use x => inferInstanceAs (Decidable (x ∈ resources))
  | .release x => inferInstanceAs (Decidable (x ∈ resources))

/-- Every action is permitted by the ones before it. -/
abbrev Safe (resources : List α) (actions : List (Action α)) : Prop :=
  Guarded live Permitted resources actions

/-- The live resources after a list of actions. -/
abbrev remaining (resources : List α) (actions : List (Action α)) : List α :=
  actions.foldl live resources

variable {resources : List α} {actions first second : List (Action α)} {x : α}

theorem safe_append : Safe resources (first ++ second) ↔
    Safe resources first ∧ Safe (remaining resources first) second :=
  guarded_append

theorem remaining_append : remaining resources (first ++ second) =
    remaining (remaining resources first) second :=
  List.foldl_append

/-- The actions use live resources and do nothing else. -/
def Uses (resources : List α) (actions : List (Action α)) : Prop :=
  ∀ action ∈ actions, ∃ x ∈ resources, action = .use x

/-- Using live resources is safe and leaves them live. -/
theorem Uses.safe (h : Uses resources actions) :
    Safe resources actions ∧ remaining resources actions = resources := by
  induction actions with
  | nil => exact ⟨trivial, rfl⟩
  | cons action rest ih =>
      obtain ⟨x, hx, rfl⟩ := h action List.mem_cons_self
      obtain ⟨hsafe, hremaining⟩ := ih fun other hmem => h other (List.mem_cons_of_mem _ hmem)
      exact ⟨⟨hx, hsafe⟩, hremaining⟩

/-- Uses of live resources make no difference to what is before and behind them. -/
theorem Uses.between {left : List α} (hsafe : Safe resources first)
    (h : Uses (remaining resources first) actions) :
    (Safe resources (first ++ (actions ++ second)) ∧
        remaining resources (first ++ (actions ++ second)) = left) ↔
      (Safe (remaining resources first) second ∧
        remaining (remaining resources first) second = left) := by
  rw [safe_append, safe_append, remaining_append, remaining_append, h.safe.2]
  exact and_congr_left fun _ => ⟨fun h' => h'.2.2, fun h' => ⟨hsafe, h.safe.1, h'⟩⟩

omit [DecidableEq α] in
theorem Uses.append (hfirst : Uses resources first) (hsecond : Uses resources second) :
    Uses resources (first ++ second) := by
  intro action hmem
  rcases List.mem_append.mp hmem with hmem | hmem
  · exact hfirst action hmem
  · exact hsecond action hmem

omit [DecidableEq α] in
theorem Uses.mono {more : List α} (h : Uses resources actions) (hsubset : resources ⊆ more) :
    Uses more actions := by
  intro action hmem
  obtain ⟨x, hx, rfl⟩ := h action hmem
  exact ⟨x, hsubset hx, rfl⟩

theorem Uses.count_acquire (h : Uses resources actions) (x : α) :
    actions.count (.acquire x) = 0 := by
  rw [List.count_eq_zero]
  intro hmem
  obtain ⟨y, -, hy⟩ := h _ hmem
  cases hy

theorem Uses.count_release (h : Uses resources actions) (x : α) :
    actions.count (.release x) = 0 := by
  rw [List.count_eq_zero]
  intro hmem
  obtain ⟨y, -, hy⟩ := h _ hmem
  cases hy

/-- Nothing is acquired while it is live, so nothing is live twice. -/
theorem nodup_remaining (hsafe : Safe resources actions) (hnodup : resources.Nodup) :
    (remaining resources actions).Nodup := by
  induction actions generalizing resources with
  | nil => exact hnodup
  | cons action rest ih =>
      refine ih hsafe.2 ?_
      cases action with
      | acquire y => exact List.nodup_cons.mpr ⟨hsafe.1, hnodup⟩
      | use y => exact hnodup
      | release y => exact hnodup.erase y

/-- A resource is released as often as it is acquired, unless it stays live. -/
theorem count_release (hsafe : Safe resources actions) (x : α) :
    (remaining resources actions).count x + actions.count (.release x) =
      resources.count x + actions.count (.acquire x) := by
  induction actions generalizing resources with
  | nil => rfl
  | cons action rest ih =>
      have hrest := ih hsafe.2
      show (remaining (live resources action) rest).count x + _ = _
      generalize (remaining (live resources action) rest).count x = left at hrest ⊢
      cases action with
      | acquire y =>
          by_cases hxy : y = x
          · subst hxy
            simp [live] at hrest ⊢
            omega
          · simpa [live, hxy] using hrest
      | use y => simpa [live] using hrest
      | release y =>
          have hmem : y ∈ resources := hsafe.1
          by_cases hxy : y = x
          · subst hxy
            have hpos := List.count_pos_iff.mpr hmem
            simp [live] at hrest ⊢
            omega
          · simpa [live, List.count_erase_of_ne (Ne.symm hxy), hxy] using hrest

/-- What is live has been released once less than it has been acquired. -/
theorem count_acquire_live (hsafe : Safe [] actions) (hlive : x ∈ remaining [] actions) :
    actions.count (.acquire x) = actions.count (.release x) + 1 := by
  have hcount := count_release hsafe x
  rw [(nodup_remaining hsafe .nil).count, if_pos hlive, List.count_nil] at hcount
  omega

/-- What is not live has been released as often as it has been acquired. -/
theorem count_acquire_ended (hsafe : Safe [] actions) (hended : x ∉ remaining [] actions) :
    actions.count (.acquire x) = actions.count (.release x) := by
  have hcount := count_release hsafe x
  rw [List.count_eq_zero.mpr hended, List.count_nil] at hcount
  omega

/-- What is acquired once and is not live at the end has been released exactly once. -/
theorem released_once (hsafe : Safe [] actions) (hacquired : actions.count (.acquire x) = 1)
    (hend : x ∉ remaining [] actions) : actions.count (.release x) = 1 :=
  (count_acquire_ended hsafe hend).symm.trans hacquired

/-! ## Acquiring and releasing lists -/

theorem mem_remaining_acquires {xs : List α} :
    x ∈ remaining resources (xs.map .acquire) ↔ x ∈ xs ∨ x ∈ resources := by
  induction xs generalizing resources with
  | nil => exact (or_iff_right List.not_mem_nil).symm
  | cons y rest ih =>
      rw [List.map_cons]
      show x ∈ remaining (y :: resources) (rest.map .acquire) ↔ _
      rw [ih, List.mem_cons, List.mem_cons]
      tauto

/-- What is acquired is acquired once. -/
theorem nodup_of_safe_acquires {xs : List α} (h : Safe resources (xs.map .acquire)) :
    xs.Nodup ∧ ∀ y ∈ xs, y ∉ resources := by
  induction xs generalizing resources with
  | nil => exact ⟨.nil, fun y hmem => absurd hmem List.not_mem_nil⟩
  | cons y rest ih =>
      obtain ⟨hfresh, hrest⟩ := h
      obtain ⟨hnodup, hnew⟩ := ih hrest
      refine ⟨List.nodup_cons.mpr ⟨fun hmem => hnew y hmem List.mem_cons_self, hnodup⟩, ?_⟩
      intro z hz
      rcases List.mem_cons.mp hz with rfl | hz
      · exact hfresh
      · exact fun hmem => hnew z hz (List.mem_cons_of_mem _ hmem)

/-- Different live resources can be released. -/
theorem safe_releases {xs : List α} (hnodup : xs.Nodup) (hlive : ∀ y ∈ xs, y ∈ resources) :
    Safe resources (xs.map .release) := by
  induction xs generalizing resources with
  | nil => trivial
  | cons y rest ih =>
      obtain ⟨hy, hrest⟩ := List.nodup_cons.mp hnodup
      refine ⟨hlive y List.mem_cons_self, ih hrest fun z hz => ?_⟩
      have hne : z ≠ y := fun h => hy (h ▸ hz)
      exact (List.mem_erase_of_ne hne).mpr (hlive z (List.mem_cons_of_mem _ hz))

/-- Live resources can be released one after the other, and the others stay live. -/
theorem Safe.release_all {xs left : List α} (hsafe : Safe resources actions)
    (hlive : (remaining resources actions).Perm (xs ++ left)) :
    Safe resources (actions ++ xs.map .release) ∧
      (remaining resources (actions ++ xs.map .release)).Perm left := by
  rw [safe_append, remaining_append]
  generalize remaining resources actions = lives at hlive
  suffices hreleases : Safe lives (xs.map .release) ∧
      (remaining lives (xs.map .release)).Perm left from ⟨⟨hsafe, hreleases.1⟩, hreleases.2⟩
  induction xs generalizing lives with
  | nil => exact ⟨trivial, hlive⟩
  | cons x rest ih =>
      have herase := hlive.erase x
      rw [List.cons_append, List.erase_cons_head] at herase
      obtain ⟨hrest, hleft⟩ := ih _ herase
      exact ⟨⟨hlive.mem_iff.mpr List.mem_cons_self, hrest⟩, hleft⟩

/-- Acquire some resources, and then release some. -/
def acquireRelease (acquired released : List α) : List (Action α) :=
  acquired.map Action.acquire ++ released.map Action.release

/-- Resources are released just as often as they are acquired if what is released is what has been
acquired, in some order. -/
theorem count_release_eq_iff {acquired released : List α} :
    (∀ x, (acquireRelease acquired released).count (.release x) =
        (acquireRelease acquired released).count (.acquire x)) ↔ released.Perm acquired := by
  have hreleases : ∀ x, (acquireRelease acquired released).count (.release x) =
      released.count x := by
    intro x
    rw [acquireRelease, List.count_append,
      List.count_map_of_injective released Action.release fun _ _ => Action.release.inj,
      List.count_eq_zero.mpr, Nat.zero_add]
    intro hmem
    obtain ⟨y, -, hy⟩ := List.mem_map.mp hmem
    cases hy
  have hacquires : ∀ x, (acquireRelease acquired released).count (.acquire x) =
      acquired.count x := by
    intro x
    rw [acquireRelease, List.count_append,
      List.count_map_of_injective acquired Action.acquire fun _ _ => Action.acquire.inj,
      Nat.add_eq_left, List.count_eq_zero]
    intro hmem
    obtain ⟨y, -, hy⟩ := List.mem_map.mp hmem
    cases hy
  rw [List.perm_iff_count]
  exact forall_congr' fun x => by rw [hreleases, hacquires]

/-- Safe actions that lead from some live resources to others and acquire nothing. -/
structure Spends (resources : List α) (actions : List (Action α)) (left : List α) : Prop where
  safe : Safe resources actions
  remaining : remaining resources actions = left
  acquires : ∀ x, actions.count (.acquire x) = 0

variable {middle left : List α}

theorem Spends.trans (hfirst : Spends resources first middle)
    (hsecond : Spends middle second left) : Spends resources (first ++ second) left := by
  refine ⟨safe_append.mpr ⟨hfirst.safe, ?_⟩, ?_, ?_⟩
  · rw [hfirst.remaining]
    exact hsecond.safe
  · rw [remaining_append, hfirst.remaining, hsecond.remaining]
  · intro x
    rw [List.count_append, hfirst.acquires, hsecond.acquires]

theorem Uses.spends (h : Uses resources actions) : Spends resources actions resources :=
  ⟨h.safe.1, h.safe.2, h.count_acquire⟩

/-- If every step is safe and keeps an invariant with the live resources, so does every run. -/
theorem safe_of_steps {σ ω : Type*} {Step : σ → List ω → σ → Prop} {start finish : σ}
    {labels : List ω} (action : ω → Option (Action α)) (Inv : σ → List α → Prop)
    (hstep : ∀ {s outputs s' resources}, Inv s resources → Step s outputs s' →
      Safe resources (outputs.filterMap action) ∧
        Inv s' (remaining resources (outputs.filterMap action)))
    (hrun : Steps Step start labels finish) (hstart : Inv start resources) :
    Safe resources (labels.filterMap action) ∧
      Inv finish (remaining resources (labels.filterMap action)) := by
  induction hrun generalizing resources with
  | refl => exact ⟨trivial, hstart⟩
  | cons hfirst _ ih =>
      obtain ⟨hsafe, hmiddle⟩ := hstep hstart hfirst
      obtain ⟨hrest, hfinish⟩ := ih hmiddle
      rw [List.filterMap_append, safe_append, remaining_append]
      exact ⟨⟨hsafe, hrest⟩, hfinish⟩

end TivaAws.Lifetime
