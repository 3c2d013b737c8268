import Mathlib.Data.List.Basic

/-!
# Runs chosen by events

A system takes a step for every event that can happen. `run` is what a list of events leads to,
`Always` says that a property holds of every state on the way, and `Throughout` that every event on
the way meets a condition on the state it happens in. `always_iff_throughout` is the rule for
conditions that are exact: under an invariant, a step from a state with the property leads to one
with the property just when the condition is met.
-/

namespace TivaAws.Runs

variable {σ ε : Type*} {step : σ → ε → Option σ} {P : σ → Prop} {G : σ → ε → Prop}
  {s s' s'' : σ} {event : ε} {events later : List ε}

/-- Events one after the other, `none` if one of them cannot happen. -/
def run (step : σ → ε → Option σ) : List ε → σ → Option σ
  | [], s => some s
  | event :: rest, s => (step s event).bind (run step rest)

theorem run_append : run step (events ++ later) s = (run step events s).bind (run step later) := by
  induction events generalizing s with
  | nil => rfl
  | cons event rest ih =>
      show (step s event).bind (run step (rest ++ later)) = _
      rw [funext fun s => @ih s, ← Option.bind_assoc]
      rfl

theorem run_append_some (hfirst : run step events s = some s')
    (hlater : run step later s' = some s'') : run step (events ++ later) s = some s'' := by
  rw [run_append, hfirst]
  exact hlater

/-- The property holds of the state and of every state that the events lead to. -/
def Always (step : σ → ε → Option σ) (P : σ → Prop) : σ → List ε → Prop
  | s, [] => P s
  | s, event :: rest => P s ∧ ∀ s' ∈ step s event, Always step P s' rest

/-- Every event that happens meets the condition. -/
def Throughout (step : σ → ε → Option σ) (G : σ → ε → Prop) : σ → List ε → Prop
  | _, [] => True
  | s, event :: rest => ∀ s' ∈ step s event, G s event ∧ Throughout step G s' rest

theorem Always.start (h : Always step P s events) : P s := by
  cases events with
  | nil => exact h
  | cons event rest => exact h.1

/-- The property holds at the end of a run. -/
theorem Always.reached (h : Always step P s events) (hrun : run step events s = some s') :
    P s' := by
  induction events generalizing s with
  | nil =>
      cases hrun
      exact h
  | cons event rest ih =>
      obtain ⟨next, hnext, hrest⟩ := Option.bind_eq_some_iff.mp hrun
      exact ih (h.2 next hnext) hrest

instance decidableThroughout [∀ s event, Decidable (G s event)] (s : σ) :
    (events : List ε) → Decidable (Throughout step G s events)
  | [] => isTrue trivial
  | event :: rest =>
      have : ∀ s', Decidable (Throughout step G s' rest) := fun s' => decidableThroughout s' rest
      inferInstanceAs (Decidable (∀ s' ∈ step s event, G s event ∧ Throughout step G s' rest))

/-- If under an invariant every event can happen, and steps that meet the condition keep the
invariant, then events that meet it throughout lead to a state with the invariant. -/
theorem run_of_throughout (Inv : σ → Prop)
    (htotal : ∀ {s} event, Inv s → ∃ s', step s event = some s')
    (hinv : ∀ {s event s'}, Inv s → G s event → step s event = some s' → Inv s') (hstart : Inv s)
    (h : Throughout step G s events) : ∃ s', run step events s = some s' ∧ Inv s' := by
  induction events generalizing s with
  | nil => exact ⟨s, rfl, hstart⟩
  | cons event rest ih =>
      obtain ⟨next, hnext⟩ := htotal event hstart
      obtain ⟨hcondition, hrest⟩ := h next hnext
      obtain ⟨finish, hfinish, hlast⟩ := ih (hinv hstart hcondition hnext) hrest
      refine ⟨finish, ?_, hlast⟩
      show (step s event).bind (run step rest) = some finish
      rw [hnext]
      exact hfinish

/-- A condition that every event meets is met throughout. -/
theorem throughout_of_forall (h : ∀ s event, G s event) : Throughout step G s events := by
  induction events generalizing s with
  | nil => trivial
  | cons event rest ih => exact fun next _ => ⟨h s event, ih⟩

/-- If under an invariant the condition implies another, then a run whose events meet the one meets
the other. -/
theorem Throughout.imp {G' : σ → ε → Prop} (Inv : σ → Prop)
    (hinv : ∀ {s event s'}, Inv s → G s event → step s event = some s' → Inv s')
    (himp : ∀ {s event}, Inv s → G s event → G' s event) (hstart : Inv s)
    (h : Throughout step G s events) : Throughout step G' s events := by
  induction events generalizing s with
  | nil => trivial
  | cons event rest ih =>
      intro next hnext
      obtain ⟨hcondition, hrest⟩ := h next hnext
      exact ⟨himp hstart hcondition, ih (hinv hstart hcondition hnext) hrest⟩

/-- Conditions that agree on the events that can happen are met by the same runs. -/
theorem throughout_congr {G' : σ → ε → Prop}
    (hagree : ∀ {s event s'}, step s event = some s' → (G s event ↔ G' s event)) :
    Throughout step G s events ↔ Throughout step G' s events := by
  induction events generalizing s with
  | nil => exact Iff.rfl
  | cons event rest ih =>
      exact forall₂_congr fun next hnext => and_congr (hagree hnext) ih

/-- If steps that meet the condition keep an invariant with the property, then the property holds in
every state of a run whose events meet the condition. -/
theorem always_of_throughout (Inv : σ → Prop)
    (hinv : ∀ {s event s'}, Inv s → G s event → step s event = some s' → Inv s')
    (hproperty : ∀ {s}, Inv s → P s) (hstart : Inv s) (h : Throughout step G s events) :
    Always step P s events := by
  induction events generalizing s with
  | nil => exact hproperty hstart
  | cons event rest ih =>
      refine ⟨hproperty hstart, fun next hnext => ?_⟩
      obtain ⟨hcondition, hrest⟩ := h next hnext
      exact ih (hinv hstart hcondition hnext) hrest

/-- If under an invariant a step keeps the property just when the condition is met, then the
property holds in every state of a run just when every event of it meets the condition. -/
theorem always_iff_throughout (Inv : σ → Prop)
    (hinv : ∀ {s event s'}, Inv s → P s → G s event → step s event = some s' → Inv s')
    (hexact : ∀ {s event s'}, Inv s → P s → step s event = some s' → (P s' ↔ G s event))
    (hstart : Inv s) (hproperty : P s) : Always step P s events ↔ Throughout step G s events := by
  induction events generalizing s with
  | nil => exact ⟨fun _ => trivial, fun _ => hproperty⟩
  | cons event rest ih =>
      constructor
      · intro halways next hnext
        have hcondition := (hexact hstart hproperty hnext).mp (halways.2 next hnext).start
        have hlater := ih (hinv hstart hproperty hcondition hnext) (halways.2 next hnext).start
        exact ⟨hcondition, hlater.mp (halways.2 next hnext)⟩
      · intro hthroughout
        refine ⟨hproperty, fun next hnext => ?_⟩
        obtain ⟨hcondition, hrest⟩ := hthroughout next hnext
        have hnextProperty := (hexact hstart hproperty hnext).mpr hcondition
        exact (ih (hinv hstart hproperty hcondition hnext) hnextProperty).mpr hrest

/-! ## Events that keep a contract -/

/-- Every event meets the condition on the state it comes up in, whether or not it can happen. -/
def Met (step : σ → ε → Option σ) (G : σ → ε → Prop) : σ → List ε → Prop
  | _, [] => True
  | s, event :: rest => G s event ∧ ∀ s' ∈ step s event, Met step G s' rest

instance decidableMet [∀ s event, Decidable (G s event)] (s : σ) :
    (events : List ε) → Decidable (Met step G s events)
  | [] => isTrue trivial
  | event :: rest =>
      have : ∀ s', Decidable (Met step G s' rest) := fun s' => decidableMet s' rest
      inferInstanceAs (Decidable (G s event ∧ ∀ s' ∈ step s event, Met step G s' rest))

/-- If under an invariant an event that meets the condition can happen and keeps the invariant, then
events that meet it lead to a state with the invariant. -/
theorem run_of_met (Inv : σ → Prop)
    (hstep : ∀ {s event}, Inv s → G s event → ∃ s', step s event = some s' ∧ Inv s')
    (hstart : Inv s) (h : Met step G s events) : ∃ s', run step events s = some s' ∧ Inv s' := by
  induction events generalizing s with
  | nil => exact ⟨s, rfl, hstart⟩
  | cons event rest ih =>
      obtain ⟨next, hnext, hinv⟩ := hstep hstart h.1
      obtain ⟨finish, hfinish, hlast⟩ := ih hinv (h.2 next hnext)
      refine ⟨finish, ?_, hlast⟩
      show (step s event).bind (run step rest) = some finish
      rw [hnext]
      exact hfinish

/-- If from related states every event that meets the condition leads to related states, then so do
events that meet it. -/
theorem simulate_of_met {τ : Type*} {impl : τ → ε → Option τ} {t : τ} (Rel : σ → τ → Prop)
    (hstart : Rel s t) (h : Met step G s events)
    (hstep : ∀ {s t event}, Rel s t → G s event →
      ∃ s' t', step s event = some s' ∧ impl t event = some t' ∧ Rel s' t') :
    ∃ s' t', run step events s = some s' ∧ run impl events t = some t' ∧ Rel s' t' := by
  induction events generalizing s t with
  | nil => exact ⟨s, t, rfl, rfl, hstart⟩
  | cons event rest ih =>
      obtain ⟨next, next', hnext, hnext', hrel⟩ := hstep hstart h.1
      obtain ⟨finish, finish', hfinish, hfinish', hlast⟩ := ih hrel (h.2 next hnext)
      refine ⟨finish, finish', ?_, ?_, hlast⟩
      · show (step s event).bind (run step rest) = some finish
        rw [hnext]
        exact hfinish
      · show (impl t event).bind (run impl rest) = some finish'
        rw [hnext']
        exact hfinish'

/-- The events after others meet the condition in the state these lead to. -/
theorem Met.after (h : Met step G s (events ++ later)) (hrun : run step events s = some s') :
    Met step G s' later := by
  induction events generalizing s with
  | nil =>
      cases hrun
      exact h
  | cons event rest ih =>
      obtain ⟨next, hnext, hrest⟩ := Option.bind_eq_some_iff.mp hrun
      exact ih (h.2 next hnext) hrest

theorem Met.before (h : Met step G s (events ++ later)) : Met step G s events := by
  induction events generalizing s with
  | nil => trivial
  | cons event rest ih => exact ⟨h.1, fun next hnext => ih (h.2 next hnext)⟩

end TivaAws.Runs
