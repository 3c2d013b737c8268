import TivaAws.Tls.Context

/-!
# What a TLS context leaves behind

Over the whole life of a context nothing is used or freed that is not there, and everything that is
initialised is freed exactly once, if and only if every step of `TLS_Connect` before the handshake
succeeds (or there is no context at all). If an earlier step fails, `TLS_Connect` returns without
freeing the mbedTLS objects or closing the session, and `TLS_Cleanup` does not do it either, as the
flag that says there is something to free is only set after the handshake.
-/

namespace TivaAws.Tls

open Lifetime

/-! ## Preparing the connection -/

open ConnectStep in
/-- The steps of `TLS_Connect` before the handshake, in order. -/
def connectSteps (params : TLSParams) (jitrCertificate : Bool) : List ConnectStep :=
  (if params.pcServerCertificate then [parseServerCertificate]
    else [parseVerisignRootCertificate, parseAts1RootCertificate]) ++
  [configDefaults, getFunctionList, .initializeLibrary, getSlotList, openSession,
    findPrivateKeyInit,
    findPrivateKey, findPrivateKeyFinal, getKeyContext, getKeySize, findCertificateInit,
    findCertificate, findCertificateFinal, getCertificateSize, allocateCertificate,
    getCertificate, parseClientCertificate] ++
  (if jitrCertificate then [parseJitrCertificate] else []) ++ [confOwnCert] ++
  (if params.ppcAlpnProtocols then [confAlpnProtocols] else []) ++ [sslSetup] ++
  if params.pcDestination then [setHostname] else []

/-- Every step before the handshake succeeds. -/
def Prepared (outcomes : Outcomes) (params : TLSParams) : Prop :=
  ∀ step ∈ connectSteps params outcomes.jitrCertificate, outcomes.step step = 0

namespace Progress

variable {p : Progress} {result : Int} {actions : List (Action Resource)} {action : Action Resource}

@[simp] theorem step_result : (p.step result actions).xResult = 0 ↔ p.xResult = 0 ∧ result = 0 := by
  unfold step
  split_ifs with h
  · exact ⟨fun hresult => ⟨h, hresult⟩, fun hboth => hboth.2⟩
  · exact ⟨fun hresult => absurd hresult h, fun hboth => hboth.1⟩

@[simp] theorem always_result : (p.always actions).xResult = p.xResult := rfl

/-- A step that is only there under a condition. -/
theorem conditional_result {condition : Bool} :
    (if condition then p.step result actions else p).xResult = 0 ↔
      p.xResult = 0 ∧ (condition → result = 0) := by
  cases condition <;> simp

theorem conditional_eq {condition : Bool} (h : condition → result = 0) :
    (if condition then p.step result actions else p) =
      if condition then p.step 0 actions else p := by
  cases condition with
  | false => rfl
  | true => rw [h rfl]

@[simp] theorem mem_step : action ∈ (p.step result actions).actions ↔
    action ∈ p.actions ∨ p.xResult = 0 ∧ action ∈ actions := by
  unfold step
  split_ifs with h
  · simp [h]
  · simp [h]

@[simp] theorem mem_always : action ∈ (p.always actions).actions ↔
    action ∈ p.actions ∨ action ∈ actions :=
  List.mem_append

/-- A step that is not taken does nothing. -/
theorem mem_conditional {condition : Bool} :
    action ∈ (if condition then p.step result actions else p).actions ↔
      action ∈ p.actions ∨ condition ∧ p.xResult = 0 ∧ action ∈ actions := by
  cases condition <;> simp

end Progress

variable {outcomes : Outcomes} {params : TLSParams} {pCtx : TLSContext}

/-- The context that `TLS_Init` fills in. -/
def TLSParams.context (params : TLSParams) : TLSContext where
  pcServerCertificate := params.pcServerCertificate
  ppcAlpnProtocols := params.ppcAlpnProtocols
  pcDestination := params.pcDestination
  pxP11FunctionList := false
  xMbedInitialized := false

theorem forall_mem_conditional {α : Type*} {condition : Bool} {x : α} {P : α → Prop} :
    (∀ y ∈ if condition then [x] else [], P y) ↔ (condition → P x) := by
  cases condition <;> simp

/-- The preparation succeeds if every step does. -/
theorem prepare_result_iff :
    (prepareConnection outcomes params.context).xResult = 0 ↔ Prepared outcomes params := by
  have hallocate : (if outcomes.step .allocateCertificate = 0 then 0 else ckrHostMemory) = 0 ↔
      outcomes.step .allocateCertificate = 0 := by
    split_ifs with h <;> simp [h, ckrHostMemory]
  unfold prepareConnection prvInitializeClientCredential Prepared connectSteps
  simp only [Progress.step_result, Progress.always_result, Progress.conditional_result, hallocate,
    List.forall_mem_append, forall_mem_conditional, List.forall_mem_cons, List.not_mem_nil,
    false_implies, implies_true, and_true, and_assoc]
  cases h : params.pcServerCertificate <;> simp [TLSParams.context, h, and_assoc]

/-- All calls succeed. -/
def succeeding (jitrCertificate : Bool) : Outcomes where
  allocated := true
  step := fun _ => 0
  jitrCertificate := jitrCertificate
  handshake := [0]

/-- Only the results of the steps that are taken matter. -/
theorem prepare_eq (h : Prepared outcomes params) : prepareConnection outcomes params.context =
    prepareConnection (succeeding outcomes.jitrCertificate) params.context := by
  obtain ⟨server, alpn, destination⟩ := params
  unfold Prepared connectSteps at h
  simp only [List.forall_mem_append, forall_mem_conditional, List.forall_mem_cons,
    List.not_mem_nil, false_implies, implies_true, and_true] at h
  obtain ⟨⟨⟨⟨⟨⟨hroot, hmiddle⟩, hjitr⟩, hown⟩, halpn⟩, hsetup⟩, hname⟩ := h
  unfold prepareConnection prvInitializeClientCredential
  simp only [TLSParams.context, hmiddle, hown, hsetup, Progress.conditional_eq hjitr,
    Progress.conditional_eq halpn, Progress.conditional_eq hname, succeeding]
  cases server with
  | false =>
      have hverisign := hroot .parseVerisignRootCertificate List.mem_cons_self
      have hats1 := hroot .parseAts1RootCertificate (List.mem_cons_of_mem _ List.mem_cons_self)
      rw [hverisign, hats1]
      rfl
  | true =>
      rw [hroot .parseServerCertificate List.mem_cons_self]
      rfl

/-- What is live when the handshake begins. -/
def handshakeResources : List Resource :=
  [.xP11Session, .mbedX509Cli, .mbedX509CA, .mbedSslConfig, .mbedSslCtx, .context]

theorem succeeding_safe : ∀ jitr server alpn destination : Bool,
    let p := prepareConnection (succeeding jitr) (TLSParams.context ⟨server, alpn, destination⟩)
    p.pxP11FunctionList = true ∧ Safe [.context] p.actions ∧
      remaining [.context] p.actions = handshakeResources := by
  decide

theorem succeeding_acquires (x : Resource) : ∀ jitr server alpn destination : Bool,
    let p := prepareConnection (succeeding jitr) (TLSParams.context ⟨server, alpn, destination⟩)
    p.actions.count (.acquire x) = if x = .context then 0 else 1 := by
  cases x <;> decide

/-- A connection that is prepared holds everything the handshake needs, and nothing more. -/
theorem prepared_spec (h : Prepared outcomes params) :
    let p := prepareConnection outcomes params.context
    p.pxP11FunctionList = true ∧ Safe [.context] p.actions ∧
      remaining [.context] p.actions = handshakeResources ∧
      ∀ x, p.actions.count (.acquire x) = if x = .context then 0 else 1 := by
  rw [prepare_eq h]
  obtain ⟨hlist, hsafe, hremaining⟩ := succeeding_safe outcomes.jitrCertificate
    params.pcServerCertificate params.ppcAlpnProtocols params.pcDestination
  exact ⟨hlist, hsafe, hremaining, fun x => succeeding_acquires x _ _ _ _⟩

/-- However far the preparation gets, it initialises the mbedTLS context and does not free it. -/
theorem prepare_ssl : .acquire .mbedSslCtx ∈ (prepareConnection outcomes params.context).actions ∧
    .release .mbedSslCtx ∉ (prepareConnection outcomes params.context).actions := by
  unfold prepareConnection prvInitializeClientCredential
  cases h : params.pcServerCertificate <;>
    simp [TLSParams.context, h, Progress.mem_conditional]

/-! ## The handshake and the transfers -/

/-- What a context owns between two calls. -/
def TLSContext.owns (pCtx : TLSContext) : List Resource :=
  if pCtx.xMbedInitialized then [.xP11Session, .mbedSslConfig, .mbedSslCtx, .context]
  else [.context]

/-- What `prvFreeContext` does with the function list at hand. -/
def freeing : List (Action Resource) :=
  recordUses ++ [.release .mbedSslCtx, .release .mbedSslConfig, .release .xP11Session]

theorem prvFreeContext_actions (hlist : pCtx.pxP11FunctionList = true) :
    (prvFreeContext pCtx).2 = freeing := by
  unfold prvFreeContext
  rw [hlist]
  rfl

/-- What is left of an initialised context is its memory. -/
theorem prvFreeContext_spends (hlist : pCtx.pxP11FunctionList = true) :
    Spends [.xP11Session, .mbedSslConfig, .mbedSslCtx, .context] (prvFreeContext pCtx).2
      [.context] := by
  rw [prvFreeContext_actions hlist]
  exact ⟨by decide, by decide, fun x => by cases x <;> rfl⟩

/-- A handshake that ends has only used what is there. -/
theorem handshakeLoop_uses {results : List Int} {last : Int × List (Action Resource)}
    (h : handshakeLoop results = some last) : Uses handshakeResources last.2 := by
  have huses : Uses handshakeResources handshakeUses := by
    unfold Uses
    decide
  induction results generalizing last with
  | nil => cases h
  | cons xResult rest ih =>
      unfold handshakeLoop at h
      split_ifs at h with hzero hwant
      · cases h
        exact huses
      · cases h
        exact huses
      · obtain ⟨later, hlater, rfl⟩ := Option.map_eq_some_iff.mp h
        exact huses.append (ih hlater)

/-- After the preparation `TLS_Connect` acquires nothing. It ends with a context that owns its
objects and its session, or, after a failed handshake, only its memory. -/
theorem connect_rest {connected : Int × TLSContext × List (Action Resource)}
    (hprepared : Prepared outcomes params)
    (h : tlsConnect outcomes params.context = some connected) :
    connected.2.1.pxP11FunctionList = true ∧
      ∃ rest, connected.2.2 = (prepareConnection outcomes params.context).actions ++ rest ∧
        Spends handshakeResources rest connected.2.1.owns := by
  have hlist := (prepared_spec hprepared).1
  unfold tlsConnect at h
  rw [if_pos (prepare_result_iff.mpr hprepared)] at h
  obtain ⟨last, hlast, rfl⟩ := Option.map_eq_some_iff.mp h
  have hhandshake := (handshakeLoop_uses hlast).spends
  split_ifs with hzero
  · refine ⟨hlist, last.2 ++ freeCertificates, List.append_assoc _ _ _, hhandshake.trans ?_⟩
    show Spends handshakeResources freeCertificates
      [.xP11Session, .mbedSslConfig, .mbedSslCtx, .context]
    exact ⟨by decide, by decide, fun x => by cases x <;> rfl⟩
  · have hfreed : (prvFreeContext { params.context with
        pxP11FunctionList := (prepareConnection outcomes params.context).pxP11FunctionList }).2 =
          freeing :=
      prvFreeContext_actions hlist
    refine ⟨hlist, last.2 ++ (freeing ++ freeCertificates), ?_, hhandshake.trans ?_⟩
    · show _ ++ last.2 ++ (prvFreeContext _).2 ++ freeCertificates = _
      rw [hfreed, List.append_assoc, List.append_assoc]
    · show Spends handshakeResources (freeing ++ freeCertificates) [.context]
      exact ⟨by decide, by decide, fun x => by cases x <;> rfl⟩

theorem connect_spec {connected : Int × TLSContext × List (Action Resource)}
    (hprepared : Prepared outcomes params)
    (h : tlsConnect outcomes params.context = some connected) :
    Safe [.context] connected.2.2 ∧ remaining [.context] connected.2.2 = connected.2.1.owns ∧
      ∀ x, connected.2.2.count (.acquire x) = if x = .context then 0 else 1 := by
  obtain ⟨-, hsafe, hremaining, hacquires⟩ := prepared_spec hprepared
  obtain ⟨-, rest, heq, hspends⟩ := connect_rest hprepared h
  rw [heq]
  refine ⟨safe_append.mpr ⟨hsafe, ?_⟩, ?_, fun x => ?_⟩
  · rw [hremaining]
    exact hspends.safe
  · rw [remaining_append, hremaining]
    exact hspends.remaining
  · rw [List.count_append, hacquires, hspends.acquires]
    rfl

/-- The loop keeps the context's books: after a hard error only the memory is left. -/
theorem transferLoop_spends {want : Int} {length done : Nat} {results : List Int} {xResult : Int}
    {last : Transfer} (hlist : pCtx.pxP11FunctionList = true)
    (hinitialized : pCtx.xMbedInitialized = true)
    (h : transferLoop want length pCtx results done xResult = some last) :
    last.pCtx.pxP11FunctionList = true ∧ Spends pCtx.owns last.actions last.pCtx.owns := by
  have howns : pCtx.owns = [.xP11Session, .mbedSslConfig, .mbedSslCtx, .context] :=
    if_pos hinitialized
  have hrecord : Spends pCtx.owns recordUses pCtx.owns := by
    rw [howns]
    exact ⟨by decide, by decide, fun x => by cases x <;> rfl⟩
  have hdone : Spends pCtx.owns [] pCtx.owns := ⟨trivial, rfl, fun _ => rfl⟩
  induction results generalizing done xResult last with
  | nil =>
      simp only [transferLoop] at h
      split_ifs at h <;>
      · cases h
        exact ⟨hlist, hdone⟩
  | cons result rest ih =>
      simp only [transferLoop] at h
      split_ifs at h
      · obtain ⟨later, hlater, rfl⟩ := Option.map_eq_some_iff.mp h
        exact ⟨(ih hlater).1, hrecord.trans (ih hlater).2⟩
      · cases h
        exact ⟨hlist, hrecord⟩
      · cases h
        refine ⟨hlist, hrecord.trans ?_⟩
        rw [howns]
        exact prvFreeContext_spends hlist
      · obtain ⟨later, hlater, rfl⟩ := Option.map_eq_some_iff.mp h
        exact ⟨(ih hlater).1, hrecord.trans (ih hlater).2⟩
      all_goals
        cases h
        exact ⟨hlist, hdone⟩

/-- A call of `TLS_Recv` or `TLS_Send` keeps the context's books, whatever it answers. -/
theorem transfer_spends {want : Int} {length : Nat} {results : List Int} {last : Transfer}
    (hlist : pCtx.pxP11FunctionList = true)
    (h : transfer want length results pCtx = some last) :
    last.pCtx.pxP11FunctionList = true ∧ Spends pCtx.owns last.actions last.pCtx.owns := by
  have hcontext : Spends pCtx.owns [.use .context] pCtx.owns := by
    unfold TLSContext.owns
    split_ifs <;> exact ⟨by decide, by decide, fun x => by cases x <;> rfl⟩
  unfold transfer at h
  split_ifs at h with hinitialized
  · obtain ⟨later, hlater, rfl⟩ := Option.map_eq_some_iff.mp h
    obtain ⟨hkept, hspends⟩ := transferLoop_spends hlist hinitialized hlater
    exact ⟨hkept, hcontext.trans hspends⟩
  · cases h
    exact ⟨hlist, hcontext⟩

/-- So do any calls after each other. -/
theorem transfers_spends {calls : List TransferCall} {later : TLSContext × List (Action Resource)}
    (hlist : pCtx.pxP11FunctionList = true) (h : transfers calls pCtx = some later) :
    later.1.pxP11FunctionList = true ∧ Spends pCtx.owns later.2 later.1.owns := by
  induction calls generalizing pCtx later with
  | nil =>
      cases h
      exact ⟨hlist, trivial, rfl, fun _ => rfl⟩
  | cons call rest ih =>
      unfold transfers at h
      obtain ⟨first, hfirst, h⟩ := Option.bind_eq_some_iff.mp h
      obtain ⟨last, hlast, h⟩ := Option.bind_eq_some_iff.mp h
      cases h
      have hcall : first.pCtx.pxP11FunctionList = true ∧
          Spends pCtx.owns first.actions first.pCtx.owns := by
        cases call with
        | recv length results => exact transfer_spends hlist hfirst
        | send length results => exact transfer_spends hlist hfirst
      obtain ⟨hkept, hspends⟩ := ih hcall.1 hlast
      exact ⟨hkept, hcall.2.trans hspends⟩

/-- `TLS_Cleanup` leaves nothing. -/
theorem tlsCleanup_spends (hlist : pCtx.pxP11FunctionList = true) :
    Spends pCtx.owns (tlsCleanup pCtx) [] := by
  unfold TLSContext.owns tlsCleanup
  rw [prvFreeContext_actions hlist]
  split_ifs <;> exact ⟨by decide, by decide, fun x => by cases x <;> rfl⟩

/-! ## A context that was never prepared -/

/-- A context without the flag is left alone by `TLS_Recv` and `TLS_Send`. -/
theorem transfers_uninitialized {calls : List TransferCall}
    {later : TLSContext × List (Action Resource)} (hflag : pCtx.xMbedInitialized = false)
    (h : transfers calls pCtx = some later) :
    later.1.xMbedInitialized = false ∧ ∀ action ∈ later.2, action = .use .context := by
  induction calls generalizing later with
  | nil =>
      cases h
      exact ⟨hflag, fun action hmem => nomatch hmem⟩
  | cons call rest ih =>
      unfold transfers at h
      obtain ⟨first, hfirst, h⟩ := Option.bind_eq_some_iff.mp h
      obtain ⟨last, hlast, h⟩ := Option.bind_eq_some_iff.mp h
      cases h
      have hcall : first = ⟨errSslInternalError, pCtx, [.use .context]⟩ := by
        cases call <;>
        · unfold TransferCall.make tlsRecv tlsSend transfer at hfirst
          rw [hflag] at hfirst
          exact (Option.some.inj hfirst).symm
      subst hcall
      obtain ⟨hkept, huses⟩ := ih hlast
      refine ⟨hkept, fun action hmem => ?_⟩
      rcases List.mem_cons.mp hmem with rfl | hmem
      · rfl
      · exact huses action hmem

/-- A context whose preparation fails never frees the mbedTLS context it has initialised. -/
theorem unprepared_leaks {calls : List TransferCall} {actions : List (Action Resource)}
    (hallocated : outcomes.allocated = true) (hprepared : ¬Prepared outcomes params)
    (h : life outcomes params calls = some actions) :
    .acquire .mbedSslCtx ∈ actions ∧ .release .mbedSslCtx ∉ actions := by
  unfold life tlsInit at h
  rw [if_pos hallocated] at h
  obtain ⟨connected, hconnected, h⟩ := Option.bind_eq_some_iff.mp h
  obtain ⟨later, hlater, h⟩ := Option.bind_eq_some_iff.mp h
  cases h
  change tlsConnect outcomes params.context = some connected at hconnected
  unfold tlsConnect at hconnected
  rw [if_neg fun hresult => hprepared (prepare_result_iff.mp hresult)] at hconnected
  cases hconnected
  obtain ⟨hacquired, hreleased⟩ := @prepare_ssl outcomes params
  obtain ⟨hflag, huses⟩ := transfers_uninitialized rfl hlater
  constructor
  · simp [hacquired]
  · have hcleanup : .release .mbedSslCtx ∉ tlsCleanup later.1 := by
      unfold tlsCleanup
      rw [hflag]
      simp
    have htransfers : .release .mbedSslCtx ∉ later.2 := fun hmem => nomatch huses _ hmem
    simp [hreleased, hcleanup, htransfers, freeCertificates]

/-! ## The life of a context -/

/-- Nothing is used or freed that is not there, and what is acquired is released exactly once. -/
structure Proper (actions : List (Action Resource)) : Prop where
  safe : Safe [] actions
  once : ∀ x, .acquire x ∈ actions → actions.count (.release x) = 1

/-- A prepared context cleans up, whatever the handshake and the transfers answer. -/
theorem prepared_proper {calls : List TransferCall} {actions : List (Action Resource)}
    (hallocated : outcomes.allocated = true) (hprepared : Prepared outcomes params)
    (h : life outcomes params calls = some actions) : Proper actions := by
  unfold life tlsInit at h
  rw [if_pos hallocated] at h
  obtain ⟨connected, hconnected, h⟩ := Option.bind_eq_some_iff.mp h
  obtain ⟨later, hlater, h⟩ := Option.bind_eq_some_iff.mp h
  cases h
  obtain ⟨hlist, -⟩ := connect_rest hprepared hconnected
  obtain ⟨hsafe, hremaining, hacquires⟩ := connect_spec hprepared hconnected
  obtain ⟨hkept, htransfers⟩ := transfers_spends hlist hlater
  have hrest : Spends connected.2.1.owns (later.2 ++ tlsCleanup later.1) [] :=
    htransfers.trans (tlsCleanup_spends hkept)
  rw [List.append_assoc]
  have hconnect : Safe [] ([.acquire .context] ++ connected.2.2) ∧
      remaining [] ([.acquire .context] ++ connected.2.2) = connected.2.1.owns :=
    ⟨safe_append.mpr ⟨by decide, hsafe⟩, hremaining⟩
  have hall :
      Safe [] ([.acquire .context] ++ connected.2.2 ++ (later.2 ++ tlsCleanup later.1)) := by
    refine safe_append.mpr ⟨hconnect.1, ?_⟩
    rw [hconnect.2]
    exact hrest.safe
  refine ⟨hall, fun x _ => released_once hall ?_ ?_⟩
  · rw [List.count_append, List.count_append, hacquires, hrest.acquires]
    cases x <;> rfl
  · rw [remaining_append, hconnect.2, hrest.remaining]
    exact List.not_mem_nil

/-- The whole life of a context, with any results of the calls, uses and frees only what is there
and frees everything it initialised exactly once, if and only if there was no memory for a context
or the connection gets as far as the handshake. -/
theorem context_cleaned_up (outcomes : Outcomes) (params : TLSParams) (calls : List TransferCall)
    (actions : List (Action Resource)) (h : life outcomes params calls = some actions) :
    Proper actions ↔ outcomes.allocated = false ∨ Prepared outcomes params := by
  cases hallocated : outcomes.allocated with
  | false =>
      unfold life tlsInit at h
      rw [hallocated] at h
      cases h
      exact ⟨fun _ => .inl rfl, fun _ => ⟨trivial, fun x hmem => nomatch hmem⟩⟩
  | true =>
      constructor
      · intro hproper
        by_contra hnot
        obtain ⟨hacquired, hreleased⟩ :=
          unprepared_leaks hallocated (fun hprepared => hnot (.inr hprepared)) h
        have honce := hproper.once _ hacquired
        rw [List.count_eq_zero.mpr hreleased] at honce
        cases honce
      · intro hprepared
        exact prepared_proper hallocated (hprepared.resolve_left nofun) h

/-- A connection that receives a record, loses the peer on a send and is cleaned up. -/
theorem context_cleaned_up_lost_peer : ∃ actions,
    life (succeeding false) ⟨true, false, true⟩
      [.recv 4 [errSslWantRead, 4], .send 2 [-0x50]] = some actions ∧
    (Proper actions ↔ (succeeding false).allocated = false ∨
      Prepared (succeeding false) ⟨true, false, true⟩) :=
  ⟨_, rfl, context_cleaned_up (succeeding false) ⟨true, false, true⟩
    [.recv 4 [errSslWantRead, 4], .send 2 [-0x50]] _ rfl⟩

/-- If the private key is not found, the session that was opened is never closed. -/
theorem session_left_open : ∃ actions,
    life { succeeding false with
        step := fun step => if step = .findPrivateKey then 5 else 0 } ⟨true, false, true⟩ [] =
      some actions ∧
    .acquire .xP11Session ∈ actions ∧ .release .xP11Session ∉ actions ∧
    .release .mbedSslCtx ∉ actions ∧ ¬Proper actions := by
  refine ⟨_, rfl, by decide, by decide, by decide, fun hproper => ?_⟩
  have honce := hproper.once .xP11Session (by decide)
  revert honce
  decide

end TivaAws.Tls
