import TivaAws.Shadow.StoredCallbacks

/-!
# Entries of the callback catalog

`prvGetCallbackCatalogEntry` looks for the entry of a Thing and, if there is none, for one that is
not in use, which it then writes behind its critical section. A full catalog without the Thing
leaves -1 for the index, and the write goes in front of the catalog before the caller asserts that
there is an entry. Between the critical section and the write another call may take the entry, or
another entry for the same Thing.
-/

namespace TivaAws.Shadow

open Runs
open Mqtt (FunctionPointer)

variable {environment : Environment} {s s' : CallbackSystem} {registration : Registration}

/-! ## The memory of the catalog -/

/-- The memory that the catalog lies in, as entries; the catalog begins at 0. -/
abbrev CatalogMemory := Int → CallbackCatalogEntry

/-- A catalog in memory. -/
def catalogMemory (surroundings : CatalogMemory) (catalog : List CallbackCatalogEntry) :
    CatalogMemory
  | .ofNat index => catalog[index]?.getD (surroundings index)
  | .negSucc index => surroundings (.negSucc index)

/-- `xReturn` behind the critical section of `prvGetCallbackCatalogEntry`. -/
def entryIndex : Option Nat → Int
  | some index => index
  | none => -1

/-- `prvGetCallbackCatalogEntry` behind its critical section. -/
def writeThing (found : Option Nat × Bool) (thingName : CString) (memory : CatalogMemory) :
    CatalogMemory :=
  if found.2 then memory
  else Function.update memory (entryIndex found.1)
    { memory (entryIndex found.1) with inUse := true, thingName }

/-- The memory of the catalog of a client. -/
def CallbackSystem.memory (s : CallbackSystem) (surroundings : CatalogMemory) : CatalogMemory :=
  catalogMemory surroundings s.catalog

/-- What the caller gets for a Thing: its entry, or a free entry that is then its own, or
nothing. -/
inductive Gets (name : List UInt8) (catalog : List CallbackCatalogEntry) (memory : CatalogMemory) :
    Int → CatalogMemory → Prop where
  | own {index : Nat} {entry : CallbackCatalogEntry} (hentry : catalog[index]? = some entry)
      (hown : entry.isFor name = true) : Gets name catalog memory index memory
  | free {index : Nat} {entry : CallbackCatalogEntry} {memory' : CatalogMemory}
      (hnone : ∀ other ∈ catalog, other.isFor name = false)
      (hentry : catalog[index]? = some entry) (hfree : entry.inUse = false)
      (hown : (memory' index).isFor name = true)
      (hothers : ∀ i : Int, i ≠ index → memory' i = memory i) :
      Gets name catalog memory index memory'
  | full {index : Int} (hnone : ∀ other ∈ catalog, other.isFor name = false)
      (hfull : ∀ other ∈ catalog, other.inUse = true) (hnegative : index < 0) :
      Gets name catalog memory index memory

/-- `prvGetCallbackCatalogEntry` does what its caller relies on, whatever lies around the catalog.
Where it finds the entry of the Thing, or none at all, no other call has a part in it; otherwise it
has done its work with the write. -/
def EntrySound (environment : Environment) (s : CallbackSystem) : CallbackEvent → Prop
  | .register params =>
      let found := prvGetCallbackCatalogEntry s.catalog params.thingName
      (found.1.isSome → found.2) → ∀ surroundings,
        Gets params.thingName.bytes s.catalog (s.memory surroundings) (entryIndex found.1)
          (writeThing found params.thingName (s.memory surroundings))
  | .proceed i =>
      ∀ registration ∈ s.registrations[i]?, registration.phase = .found false →
        ∀ s' ∈ callbackStep environment s (.proceed i), ∀ surroundings,
          Gets registration.thing s.catalog (s.memory surroundings) registration.index
            (s'.memory surroundings)
  | _ => True

/-- The entry is there for the Thing: it is its own, or it is free and the Thing has none. -/
def Available (catalog : List CallbackCatalogEntry) (name : List UInt8)
    (entry : CallbackCatalogEntry) : Prop :=
  entry.isFor name = true ∨
    (entry.inUse = false ∧ ∀ other ∈ catalog, other.isFor name = false)

/-- The catalog has an entry for the Thing, or a free one, and at the write the entry that was found
is still there for it. -/
def EntryFits (s : CallbackSystem) : CallbackEvent → Prop
  | .register params =>
      ∃ entry ∈ s.catalog, entry.isFor params.thingName.bytes = true ∨ entry.inUse = false
  | .proceed i =>
      ∀ registration ∈ s.registrations[i]?, registration.phase = .found false →
        ∀ entry ∈ s.entry registration, Available s.catalog registration.thing entry
  | _ => True

instance (s : CallbackSystem) : (event : CallbackEvent) → Decidable (EntryFits s event)
  | .register params => inferInstanceAs (Decidable (∃ entry ∈ s.catalog,
      entry.isFor params.thingName.bytes = true ∨ entry.inUse = false))
  | .proceed i => inferInstanceAs (Decidable (∀ registration ∈ s.registrations[i]?,
      registration.phase = .found false → ∀ entry ∈ s.entry registration,
        entry.isFor registration.thing = true ∨
          (entry.inUse = false ∧ ∀ other ∈ s.catalog, other.isFor registration.thing = false)))
  | .shadow _ | .mqttReturns _ _ _ => isTrue trivial

/-! ## One entry -/

section Memory

variable {catalog : List CallbackCatalogEntry} {surroundings : CatalogMemory} {index : Nat}
  {entry : CallbackCatalogEntry} {name : List UInt8}

/-- An entry of the catalog in memory. -/
theorem catalog_memory_entry (hentry : catalog[index]? = some entry) :
    catalogMemory surroundings catalog index = entry := by
  show catalog[index]?.getD _ = entry
  rw [hentry]
  rfl

/-- A change of an entry is one write to memory. -/
theorem catalog_memory_modify (f : CallbackCatalogEntry → CallbackCatalogEntry)
    (hentry : catalog[index]? = some entry) :
    catalogMemory surroundings (catalog.modify index f) =
      Function.update (catalogMemory surroundings catalog) (index : Int) (f entry) := by
  funext i
  cases i with
  | negSucc i =>
      rw [Function.update_of_ne (by omega)]
      rfl
  | ofNat i =>
      show ((catalog.modify index f)[i]?).getD _ = _
      by_cases hindex : index = i
      · subst hindex
        rw [List.getElem?_modify_eq f, hentry]
        show f entry = Function.update (catalogMemory surroundings catalog) (index : Int) _ index
        rw [Function.update_self]
      · have hne : Int.ofNat i ≠ (index : Int) := fun h => hindex (Int.ofNat.inj h).symm
        rw [List.getElem?_modify_ne f _ hindex, Function.update_of_ne hne]
        rfl

/-- The name and the mark are no change for the entry of the Thing. -/
theorem mark_own {thingName : CString} (hown : entry.isFor thingName.bytes = true) :
    { entry with inUse := true, thingName } = entry := by
  unfold CallbackCatalogEntry.isFor at hown
  simp only [Bool.and_eq_true, beq_iff_eq] at hown
  obtain ⟨inUse, ⟨bytes, hbytes⟩, updated, deleted, delta⟩ := entry
  obtain ⟨hused, hname⟩ := hown
  cases hused
  cases hname
  rfl

/-- The entry that is written is that of the Thing. -/
theorem mark_is_for (thingName : CString) :
    ({ entry with inUse := true, thingName } : CallbackCatalogEntry).isFor thingName.bytes
      = true := by
  unfold CallbackCatalogEntry.isFor
  simp

end Memory

/-! ## The write -/

/-- The step of a registration behind the critical section is the write. -/
theorem proceed_found {i : Nat} {thingNameFound : Bool}
    (hregistration : s.registrations[i]? = some registration)
    (hphase : registration.phase = .found thingNameFound)
    (hstep : callbackStep environment s (.proceed i) = some s') :
    ∃ entry, s.entry registration = some entry ∧
      s' = if thingNameFound then s.enter i registration (.enter .updated)
        else (s.enter i registration (.enter .updated)).modifyEntry registration fun entry =>
          { entry with inUse := true, thingName := registration.params.thingName } := by
  obtain ⟨-, other, hother, hproceeds⟩ := callback_step_cases hstep
  cases hregistration.symm.trans hother
  obtain ⟨entry, hentry, hproceed⟩ := Option.bind_eq_some_iff.mp hproceeds
  rw [hphase] at hproceed
  exact ⟨entry, hentry, (Option.some.inj hproceed).symm⟩

/-- The memory behind the write. -/
theorem proceed_memory {i : Nat} {thingNameFound : Bool} (surroundings : CatalogMemory)
    (hregistration : s.registrations[i]? = some registration)
    (hphase : registration.phase = .found thingNameFound)
    (hstep : callbackStep environment s (.proceed i) = some s') :
    s'.memory surroundings = writeThing (some registration.index, thingNameFound)
      registration.params.thingName (s.memory surroundings) := by
  obtain ⟨entry, hentry, rfl⟩ := proceed_found hregistration hphase hstep
  cases thingNameFound with
  | true => rfl
  | false =>
      show catalogMemory surroundings (s.catalog.modify registration.index _)
        = Function.update _ _ _
      rw [catalog_memory_modify _ hentry, ← catalog_memory_entry hentry]
      rfl

/-- What the caller gets at the index of an entry was there for the Thing. -/
theorem Gets.available {memory memory' : CatalogMemory} {entry : CallbackCatalogEntry}
    {catalog : List CallbackCatalogEntry} {name : List UInt8} {index : Nat}
    (hgets : Gets name catalog memory index memory') (hentry : catalog[index]? = some entry) :
    Available catalog name entry := by
  generalize hindex : (index : Int) = i at hgets
  cases hgets with
  | own hfound hown =>
      cases Int.ofNat.inj hindex
      cases hentry.symm.trans hfound
      exact .inl hown
  | free hnone hfound hfree =>
      cases Int.ofNat.inj hindex
      cases hentry.symm.trans hfound
      exact .inr ⟨hfree, hnone⟩
  | full hnone hfull hnegative => omega

/-- The write is right just when the entry is there for the Thing. -/
theorem write_gets_iff {entry : CallbackCatalogEntry} (thingName : CString)
    {catalog : List CallbackCatalogEntry} {index : Nat} (hentry : catalog[index]? = some entry) :
    (∀ surroundings, Gets thingName.bytes catalog (catalogMemory surroundings catalog) index
      (writeThing (some index, false) thingName (catalogMemory surroundings catalog))) ↔
      Available catalog thingName.bytes entry := by
  constructor
  · exact fun hgets => (hgets fun _ => entry).available hentry
  · intro havailable surroundings
    have hwritten : writeThing (some index, false) thingName (catalogMemory surroundings catalog)
        = Function.update (catalogMemory surroundings catalog) (index : Int)
          { entry with inUse := true, thingName } := by
      show Function.update _ _ _ = _
      rw [show entryIndex (some index, false).1 = index from rfl, catalog_memory_entry hentry]
    rw [hwritten]
    obtain hown | ⟨hfree, hnone⟩ := havailable
    · rw [mark_own hown, Function.update_eq_self_iff.mpr (catalog_memory_entry hentry).symm]
      exact .own hentry hown
    · refine .free hnone hentry hfree ?_ fun i hi => Function.update_of_ne hi _ _
      rw [Function.update_self]
      exact mark_is_for thingName

/-! ## The search -/

/-- There is no index just when all entries are in use for other Things. -/
theorem get_entry_none (name : List UInt8) (catalog : List CallbackCatalogEntry) (index : Nat)
    (unused : Option Nat) (h : (getCallbackCatalogEntry name catalog index unused).1 = none) :
    getCallbackCatalogEntry name catalog index unused = (none, false) ∧ unused = none ∧
      ∀ entry ∈ catalog, entry.inUse = true ∧ entry.isFor name = false := by
  induction catalog generalizing index unused with
  | nil => exact ⟨Prod.ext h rfl, h, fun _ hmem => absurd hmem List.not_mem_nil⟩
  | cons entry rest ih =>
      unfold getCallbackCatalogEntry at h ⊢
      split_ifs at h ⊢ with hunused hfor
      · obtain ⟨-, hsome, -⟩ := ih (index + 1) _ h
        cases hsome
      · obtain ⟨hrest, hnone, hfull⟩ := ih (index + 1) _ h
        refine ⟨hrest, hnone, List.forall_mem_cons.mpr ⟨⟨?_, ?_⟩, hfull⟩⟩
        · simpa using hunused
        · simpa using hfor

/-- An index is that of an entry of the Thing or of one that is not in use. -/
theorem get_entry_some {catalog : List CallbackCatalogEntry} {thingName : CString} {index : Nat}
    {thingNameFound : Bool}
    (hget : prvGetCallbackCatalogEntry catalog thingName = (some index, thingNameFound)) :
    ∃ entry, catalog[index]? = some entry ∧
      (entry.isFor thingName.bytes = true ∨ entry.inUse = false) := by
  cases thingNameFound with
  | true =>
      obtain ⟨entry, hentry, -, hown⟩ := get_entry_found _ _ _ _ hget
      exact ⟨entry, hentry, .inl hown⟩
  | false =>
      obtain ⟨-, hfound | ⟨j, entry, hfound, hentry, hfree⟩⟩ := get_entry_unused _ _ _ _ hget
      · cases hfound
      · cases hfound
        rw [← Nat.zero_add j] at hentry
        exact ⟨entry, hentry, .inr hfree⟩

theorem room_of_found {catalog : List CallbackCatalogEntry} {thingName : CString} {index : Nat}
    (h : (prvGetCallbackCatalogEntry catalog thingName).1 = some index) :
    ∃ entry ∈ catalog, entry.isFor thingName.bytes = true ∨ entry.inUse = false := by
  obtain ⟨entry, hentry, hroom⟩ := get_entry_some (Prod.ext h rfl)
  exact ⟨entry, List.mem_of_getElem? hentry, hroom⟩

/-- There is an index if the catalog has an entry of the Thing or one that is not in use. -/
theorem found_of_room {catalog : List CallbackCatalogEntry} {thingName : CString}
    (hroom : ∃ entry ∈ catalog, entry.isFor thingName.bytes = true ∨ entry.inUse = false) :
    ∃ index thingNameFound entry,
      prvGetCallbackCatalogEntry catalog thingName = (some index, thingNameFound) ∧
        catalog[index]? = some entry := by
  cases hget : prvGetCallbackCatalogEntry catalog thingName with
  | mk found thingNameFound =>
      cases found with
      | none =>
          obtain ⟨entry, hmem, hown⟩ := hroom
          have hother := (get_entry_none _ _ _ _ (congrArg Prod.fst hget)).2.2 entry hmem
          simp [hother] at hown
      | some index =>
          obtain ⟨entry, hentry, -⟩ := get_entry_some hget
          exact ⟨index, thingNameFound, entry, rfl, hentry⟩

/-- A write in front of the catalog is nothing that a caller may get. -/
theorem not_gets_write_before {name : List UInt8} {catalog : List CallbackCatalogEntry}
    (thingName : CString) :
    ¬ ∀ surroundings, Gets name catalog (catalogMemory surroundings catalog) (-1)
      (writeThing (none, false) thingName (catalogMemory surroundings catalog)) := by
  intro hgets
  generalize hindex : (-1 : Int) = i at hgets
  generalize hmemory : catalogMemory (fun _ => .unused) catalog = memory
  have hbefore := hgets fun _ => .unused
  rw [hmemory] at hbefore
  generalize hwritten : writeThing (none, false) thingName memory = memory' at hbefore
  cases hbefore with
  | own => omega
  | free => omega
  | full =>
      have hmark := congrArg CallbackCatalogEntry.inUse (congrFun hwritten (-1))
      rw [← hmemory] at hmark
      cases hmark

/-- A critical section behind which there is no write to come does its work just when the catalog
has an entry for the Thing or a free one. -/
theorem search_gets_iff (catalog : List CallbackCatalogEntry) (thingName : CString)
    {found : Option Nat × Bool} (hget : prvGetCallbackCatalogEntry catalog thingName = found) :
    ((found.1.isSome → found.2) → ∀ surroundings,
      Gets thingName.bytes catalog (catalogMemory surroundings catalog) (entryIndex found.1)
        (writeThing found thingName (catalogMemory surroundings catalog))) ↔
      ∃ entry ∈ catalog, entry.isFor thingName.bytes = true ∨ entry.inUse = false := by
  obtain ⟨found, thingNameFound⟩ := found
  cases found with
  | none =>
      obtain ⟨hnotFound, -, hfull⟩ := get_entry_none _ _ _ _ (congrArg Prod.fst hget)
      cases hget.symm.trans hnotFound
      refine iff_of_false (fun hgets => not_gets_write_before thingName (hgets fun h => nomatch h))
        fun hroom => ?_
      obtain ⟨index, found, entry, hfound, -⟩ := found_of_room hroom
      cases hget.symm.trans hfound
  | some index =>
      refine iff_of_true (fun hwritten surroundings => ?_) (room_of_found (congrArg Prod.fst hget))
      cases hwritten rfl
      obtain ⟨entry, hentry, -, hown⟩ := get_entry_found _ _ _ _ hget
      exact .own hentry hown

/-! ## Every run -/

/-- What a call gets is right just when its entry fits. -/
theorem entry_sound_iff {event : CallbackEvent}
    (hstep : callbackStep environment s event = some s') :
    EntrySound environment s event ↔ EntryFits s event := by
  cases event with
  | register params => exact search_gets_iff s.catalog params.thingName rfl
  | proceed i =>
      refine forall₃_congr fun registration hregistration hphase => ?_
      obtain ⟨entry, hentry, -⟩ := proceed_found hregistration hphase hstep
      have hwrite := write_gets_iff registration.params.thingName hentry
      constructor
      · rintro hsound entry' hentry'
        cases hentry.symm.trans hentry'
        refine hwrite.mp fun surroundings => ?_
        rw [← show s.memory surroundings = catalogMemory surroundings s.catalog from rfl,
          ← proceed_memory surroundings hregistration hphase hstep]
        exact hsound s' hstep surroundings
      · intro hfits next hnext surroundings
        rw [proceed_memory surroundings hregistration hphase hnext]
        exact hwrite.mpr (hfits entry hentry) surroundings
  | shadow => exact Iff.rfl
  | mqttReturns => exact Iff.rfl

/-- What a registration does to its entry. -/
inductive EntryChange (registration : Registration) :
    RegistrationPhase → (CallbackCatalogEntry → CallbackCatalogEntry) → Prop where
  | mark : EntryChange registration (.found false) fun entry =>
      { entry with inUse := true, thingName := registration.params.thingName }
  | store (kind : CallbackKind) : EntryChange registration (.store kind shadowSuccess) fun entry =>
      entry.withCallback kind (registration.params.callback kind)
  | clear : EntryChange registration .clear fun _ => .unused

/-- What a registration does by itself to the catalog. -/
theorem proceed_catalog {i : Nat} (h : s.proceed i registration = some s') :
    s'.catalog = s.catalog ∨ ∃ f, EntryChange registration registration.phase f ∧
      s'.catalog = s.catalog.modify registration.index f := by
  obtain ⟨entry, -, hproceeds⟩ := registration_proceed_cases h
  cases hproceeds with
  | mark hphase => exact .inr ⟨_, hphase ▸ .mark, rfl⟩
  | store hphase => exact .inr ⟨_, hphase ▸ .store _, rfl⟩
  | clear hphase => exact .inr ⟨_, hphase ▸ .clear, rfl⟩
  | found | enter | keep | isEmpty | finish => exact .inl rfl

/-- Only registrations change the catalog. -/
theorem catalog_step {event : CallbackEvent}
    (hstep : callbackStep environment s event = some s') :
    s'.catalog = s.catalog ∨ ∃ i registration f, event = .proceed i ∧
      s.registrations[i]? = some registration ∧ EntryChange registration registration.phase f ∧
      s'.catalog = s.catalog.modify registration.index f := by
  have hcases := callback_step_cases hstep
  cases event with
  | shadow event =>
      obtain ⟨-, system, labels, hsystem, rfl⟩ := hcases
      exact .inl (step_effect hsystem).catalog
  | register params =>
      obtain ⟨-, rfl⟩ := hcases
      refine .inl ?_
      unfold CallbackSystem.register
      split <;> rfl
  | proceed i =>
      obtain ⟨-, registration, hregistration, hproceeds⟩ := hcases
      exact (proceed_catalog hproceeds).imp_right fun ⟨f, hchange, hcatalog⟩ =>
        ⟨i, registration, f, rfl, hregistration, hchange, hcatalog⟩
  | mqttReturns i code effect =>
      obtain ⟨-, -, -, registration, -, hreturns⟩ := hcases
      refine .inl ?_
      cases registration_return_cases hreturns <;> cases effect <;> rfl

@[simp]
theorem with_callback_is_for (kind : CallbackKind) (callback : Option FunctionPointer)
    (entry : CallbackCatalogEntry) (name : List UInt8) :
    (entry.withCallback kind callback).isFor name = entry.isFor name := by
  cases kind <;> rfl

/-- A change of one entry that does not make it that of a Thing with another entry. -/
theorem Distinct.modify {catalog : List CallbackCatalogEntry} {index : Nat}
    {f : CallbackCatalogEntry → CallbackCatalogEntry} (hdistinct : Distinct catalog)
    (hchange : ∀ (entry : CallbackCatalogEntry) (name : List UInt8),
      catalog[index]? = some entry → (f entry).isFor name = true →
        entry.isFor name = true ∨ ∀ other ∈ catalog, other.isFor name = false) :
    Distinct (catalog.modify index f) := by
  have horigin : ∀ (j : Nat) (entry : CallbackCatalogEntry) (name : List UInt8),
      (catalog.modify index f)[j]? = some entry → entry.isFor name = true →
        (∃ old, catalog[j]? = some old ∧ old.isFor name = true) ∨
          (j = index ∧ ∀ other ∈ catalog, other.isFor name = false) := by
    intro j entry name hentry hfor
    by_cases hj : index = j
    · subst hj
      rw [List.getElem?_modify_eq f] at hentry
      obtain ⟨old, hold, rfl⟩ := Option.map_eq_some_iff.mp hentry
      exact (hchange old name hold hfor).imp (fun h => ⟨old, hold, h⟩) fun h => ⟨rfl, h⟩
    · rw [List.getElem?_modify_ne f _ hj] at hentry
      exact .inl ⟨entry, hentry, hfor⟩
  intro name i j entry other hentry hother hfor hforOther
  obtain ⟨old, hold, hown⟩ | ⟨rfl, hnone⟩ := horigin i entry name hentry hfor
  · obtain ⟨old', hold', hown'⟩ | ⟨-, hnone⟩ := horigin j other name hother hforOther
    · exact hdistinct name i j old old' hold hold' hown hown'
    · rw [hnone old (List.mem_of_getElem? hold)] at hown
      cases hown
  · obtain ⟨old', hold', hown'⟩ | ⟨rfl, -⟩ := horigin j other name hother hforOther
    · rw [hnone old' (List.mem_of_getElem? hold')] at hown'
      cases hown'
    · rfl

/-- No Thing gets a second entry by a step whose entry fits. -/
theorem distinct_step {event : CallbackEvent} (hdistinct : Distinct s.catalog)
    (hfits : EntryFits s event) (hstep : callbackStep environment s event = some s') :
    Distinct s'.catalog := by
  obtain hcatalog | ⟨i, registration, f, rfl, hregistration, hchange, hcatalog⟩ :=
    catalog_step hstep
  · rw [hcatalog]
    exact hdistinct
  rw [hcatalog]
  refine hdistinct.modify fun entry name hentry hfor => ?_
  generalize hphase : registration.phase = phase at hchange
  cases hchange with
  | mark =>
      cases is_for_unique hfor (mark_is_for registration.params.thingName)
      exact (hfits registration hregistration hphase entry hentry).imp_right And.right
  | store kind =>
      rw [with_callback_is_for] at hfor
      exact .inl hfor
  | clear => cases hfor

/-- The catalog has at most one entry for a Thing, and every call gets what its caller relies on,
just when the entries fit. -/
theorem catalog_entries_sound_iff (environment : Environment) (things : Nat)
    (topicBuffer : ByteMemory) (events : List CallbackEvent) :
    (Throughout (callbackStep environment) (EntrySound environment) (.created things topicBuffer)
        events ∧
      Always (callbackStep environment) (fun s => Distinct s.catalog) (.created things topicBuffer)
        events) ↔
      Throughout (callbackStep environment) EntryFits (.created things topicBuffer) events := by
  rw [throughout_congr entry_sound_iff, and_iff_left_iff_imp]
  exact always_of_throughout (fun s => Distinct s.catalog) distinct_step id
    (created_backed things topicBuffer).distinct

/-- A callback for the Thing `T` is registered, with all steps of the call. -/
def registeredCallback : List CallbackEvent :=
  subscribedCallback ++ List.replicate 6 (.proceed 0)

/-- The only entry of the catalog is in use for `T` when a callback for `U` is registered. -/
def fullCatalog : List CallbackEvent :=
  registeredCallback ++ [.register { benchCallbacks with thingName := ⟨ascii "U", by decide⟩ }]

theorem full_catalog_written_before :
    ¬ (Throughout (callbackStep benchEnvironment) (EntrySound benchEnvironment)
        (.created 1 fun _ => 0) fullCatalog ∧
      Always (callbackStep benchEnvironment) (fun s => Distinct s.catalog) (.created 1 fun _ => 0)
        fullCatalog) := by
  rintro ⟨hsound, -⟩
  rw [throughout_congr entry_sound_iff] at hsound
  revert hsound
  decide +kernel

end TivaAws.Shadow
