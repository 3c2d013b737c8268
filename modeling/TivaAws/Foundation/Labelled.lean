import Mathlib.Data.List.Basic

/-!
# Labelled steps and their runs

A step leads from one state to another and emits a list of labels. `Steps` is a finite run with
the labels of all its steps. The rules for runs are `Steps.preserves`, for an invariant of the
states alone, and `Steps.forall_labels`, for what all labels satisfy under it. `Guarded` restricts
each label by a fold over the labels before it, and `Steps.preserves_guarded` is the rule for an
invariant that relates the state to that fold, in runs whose labels are so restricted. `replay`
computes runs of steps that are chosen by a list of events.
-/

namespace TivaAws.Labelled

variable {σ ω γ : Type*}

/-- Finitely many steps, with the concatenation of their labels. -/
inductive Steps (Step : σ → List ω → σ → Prop) : σ → List ω → σ → Prop where
  | refl (state) : Steps Step state [] state
  | cons {start middle finish : σ} {first rest : List ω} :
      Step start first middle → Steps Step middle rest finish →
      Steps Step start (first ++ rest) finish

variable {Step : σ → List ω → σ → Prop} {start middle finish : σ} {first second labels : List ω}

/-- One step is a run. -/
theorem Steps.single (h : Step start labels finish) : Steps Step start labels finish := by
  simpa using Steps.cons h (.refl finish)

/-- Runs compose, and so do their labels. -/
theorem Steps.append (hfirst : Steps Step start first middle)
    (hsecond : Steps Step middle second finish) :
    Steps Step start (first ++ second) finish := by
  induction hfirst with
  | refl => exact hsecond
  | cons hstep _ ih =>
      rw [List.append_assoc]
      exact .cons hstep (ih hsecond)

/-- What every step preserves holds at the end of a run. -/
theorem Steps.preserves (Inv : σ → Prop)
    (hstep : ∀ {s labels s'}, Inv s → Step s labels s' → Inv s')
    (hrun : Steps Step start labels finish) (hstart : Inv start) : Inv finish := by
  induction hrun with
  | refl => exact hstart
  | cons h _ ih => exact ih (hstep hstart h)

/-- What the labels of every step satisfy under an invariant, all labels of a run satisfy. -/
theorem Steps.forall_labels (Inv : σ → Prop) {P : ω → Prop}
    (hstep : ∀ {s labels s'}, Inv s → Step s labels s' → (∀ label ∈ labels, P label) ∧ Inv s')
    (hrun : Steps Step start labels finish) (hstart : Inv start) : ∀ label ∈ labels, P label := by
  induction hrun with
  | refl => exact fun label hmem => absurd hmem List.not_mem_nil
  | cons h _ ih =>
      obtain ⟨hfirst, hmiddle⟩ := hstep hstart h
      intro label hmem
      rcases List.mem_append.mp hmem with hmem | hmem
      · exact hfirst label hmem
      · exact ih hmiddle label hmem

/-- A run seen through a partial map of its labels. -/
theorem Steps.relabel {ω' : Type*} (f : ω → Option ω') (hrun : Steps Step start labels finish) :
    Steps (fun s out s' => ∃ labels, Step s labels s' ∧ out = labels.filterMap f) start
      (labels.filterMap f) finish := by
  induction hrun with
  | refl => exact .refl _
  | cons h _ ih =>
      rw [List.filterMap_append]
      exact .cons ⟨_, h, rfl⟩ ih

/-! ## Guards on labels -/

variable {fold : γ → ω → γ} {Guard Result : γ → ω → Prop}

/-- Every label satisfies a guard that may depend on the fold over the labels before it. -/
def Guarded (fold : γ → ω → γ) (Guard : γ → ω → Prop) : γ → List ω → Prop
  | _, [] => True
  | g, label :: rest => Guard g label ∧ Guarded fold Guard (fold g label) rest

instance decidableGuarded [∀ g label, Decidable (Guard g label)] (g : γ) :
    (labels : List ω) → Decidable (Guarded fold Guard g labels)
  | [] => isTrue trivial
  | label :: rest =>
      have : Decidable (Guarded fold Guard (fold g label) rest) :=
        decidableGuarded (fold g label) rest
      inferInstanceAs (Decidable (Guard g label ∧ Guarded fold Guard (fold g label) rest))

theorem Guarded.imp {Weaker : γ → ω → Prop} (hweaker : ∀ g label, Guard g label → Weaker g label)
    {g : γ} (h : Guarded fold Guard g labels) : Guarded fold Weaker g labels := by
  induction labels generalizing g with
  | nil => trivial
  | cons label rest ih => exact ⟨hweaker g label h.1, ih h.2⟩

theorem Guarded.trivial (labels : List ω) (g : γ) :
    Guarded fold (fun _ _ => True) g labels := by
  induction labels generalizing g with
  | nil => exact True.intro
  | cons label rest ih => exact ⟨True.intro, ih _⟩

theorem Guarded.and_mem {Holds : ω → Prop} {g : γ} (h : Guarded fold Guard g labels)
    (hholds : ∀ label ∈ labels, Holds label) :
    Guarded fold (fun g label => Guard g label ∧ Holds label) g labels := by
  induction labels generalizing g with
  | nil => trivial
  | cons label rest ih =>
      exact ⟨⟨h.1, hholds label List.mem_cons_self⟩,
        ih h.2 fun other hmem => hholds other (List.mem_cons_of_mem _ hmem)⟩

/-- Each of the labels satisfies its guard for some value of the fold. -/
theorem guarded_mem {g : γ} (h : Guarded fold Guard g labels) :
    ∀ label ∈ labels, ∃ g, Guard g label := by
  induction labels generalizing g with
  | nil => exact fun label hmem => absurd hmem List.not_mem_nil
  | cons label rest ih =>
      intro other hmem
      rcases List.mem_cons.mp hmem with rfl | hmem
      · exact ⟨g, h.1⟩
      · exact ih h.2 other hmem

theorem guarded_append {g : γ} {first second : List ω} :
    Guarded fold Guard g (first ++ second) ↔
      Guarded fold Guard g first ∧ Guarded fold Guard (first.foldl fold g) second := by
  induction first generalizing g with
  | nil => simp [Guarded]
  | cons label rest ih => simp [Guarded, ih, and_assoc]

/-- Guards on the labels of entries, one entry after the other. -/
theorem guarded_flatMap {ε : Type*} {labelsOf : ε → List ω} {g : γ} {entries : List ε} :
    Guarded fold Guard g (entries.flatMap labelsOf) ↔
      Guarded (fun g entry => (labelsOf entry).foldl fold g)
        (fun g entry => Guarded fold Guard g (labelsOf entry)) g entries := by
  induction entries generalizing g with
  | nil => simp [Guarded]
  | cons entry rest ih => simp [Guarded, guarded_append, ih]

/-- If a step whose labels are guarded keeps the invariant and its labels have a further
property, then a run whose labels are guarded keeps the invariant and its labels have it. -/
theorem Steps.preserves_guarded (Inv : σ → γ → Prop)
    (hstep : ∀ {s labels s' g}, Inv s g → Guarded fold Guard g labels → Step s labels s' →
      Guarded fold Result g labels ∧ Inv s' (labels.foldl fold g))
    (hrun : Steps Step start labels finish) {g : γ} (hguard : Guarded fold Guard g labels)
    (hstart : Inv start g) :
    Guarded fold Result g labels ∧ Inv finish (labels.foldl fold g) := by
  induction hrun generalizing g with
  | refl => exact ⟨trivial, hstart⟩
  | cons h _ ih =>
      rw [guarded_append] at hguard ⊢
      rw [List.foldl_append]
      obtain ⟨hresult, hmiddle⟩ := hstep hstart hguard.1 h
      obtain ⟨hrest, hfinish⟩ := ih hguard.2 hmiddle
      exact ⟨⟨hresult, hrest⟩, hfinish⟩

/-! ## Replaying events -/

variable {ε : Type*} {next : σ → ε → Option (σ × List ω)}

/-- Events one after the other, `none` if one of them cannot happen. -/
def replay (next : σ → ε → Option (σ × List ω)) : List ε → σ → Option (σ × List ω)
  | [], s => some (s, [])
  | event :: rest, s => do
      let first ← next s event
      let later ← replay next rest first.1
      some (later.1, first.2 ++ later.2)

/-- What is replayed is a run. -/
theorem steps_of_replay {events : List ε} (h : replay next events start = some (finish, labels)) :
    Steps (fun s labels s' => ∃ event, next s event = some (s', labels)) start labels finish := by
  induction events generalizing start labels with
  | nil =>
      cases h
      exact .refl _
  | cons event rest ih =>
      obtain ⟨first, hfirst, h⟩ := Option.bind_eq_some_iff.mp h
      obtain ⟨later, hlater, h⟩ := Option.bind_eq_some_iff.mp h
      cases h
      exact .cons ⟨event, hfirst⟩ (ih hlater)

end TivaAws.Labelled
