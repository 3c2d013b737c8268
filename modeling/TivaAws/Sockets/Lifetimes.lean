import TivaAws.Sockets.Port

/-!
# What the sockets port does with a context

A function of the port that is given an address uses the context there and its descriptor, and
nothing else, and leaves the context in place (`Port.Serves`). `SOCKETS_Close` then releases both
(`close_closes`), and `SOCKETS_Socket` acquires both if lwIP and the allocator grant what it asks
for (`socket_opens`); if they do not, it returns `NULL` (`socket_refused`).
-/

namespace TivaAws.Sockets

open Lifetime

variable {E : Type} {platform : Platform E} {address xSocket : Nat} {port port' port'' : Port E}
  {outputs later : List PortOutput} {pxContext : SSOCKETContext}

/-! ## Serving a context -/

/-- The output is a use of one context and its descriptor, or has to do with neither. -/
def PortOutput.Touches (address xSocket : Nat) : PortOutput → Prop
  | .action done => done = .use (.context address) ∨ done = .use (.descriptor xSocket)
  | .memory _ => True
  | .noSocket _ => False
  | .connected descriptor => descriptor = xSocket

namespace Port

/-- The port has appended some outputs. -/
def Appends (port : Port E) (outputs : List PortOutput) (port' : Port E) : Prop :=
  port'.outputs = port.outputs ++ outputs

theorem appends_emit (output : PortOutput) (port : Port E) :
    Appends port [output] (port.emit output) := rfl

theorem Appends.trans (hfirst : Appends port outputs port') (hsecond : Appends port' later port'') :
    Appends port (outputs ++ later) port'' := by
  unfold Appends at *
  rw [hsecond, hfirst, List.append_assoc]

/-- A context at the address has this descriptor. -/
def At (address xSocket : Nat) (port : Port E) : Prop :=
  ∀ pxContext, port.contexts address = some pxContext → pxContext.xSocket = xSocket

theorem exists_at (address : Nat) (port : Port E) : ∃ xSocket, port.At address xSocket := by
  cases hcontext : port.contexts address with
  | none =>
      refine ⟨0, fun pxContext hsome => ?_⟩
      rw [hcontext] at hsome
      cases hsome
  | some found =>
      refine ⟨found.xSocket, fun pxContext hsome => ?_⟩
      rw [hcontext, Option.some.injEq] at hsome
      rw [hsome]

/-- The port has done something with the context at an address only. -/
structure Serves (address xSocket : Nat) (port : Port E) (outputs : List PortOutput)
    (port' : Port E) : Prop where
  appends : Appends port outputs port'
  touches : ∀ output ∈ outputs, output.Touches address xSocket
  at_address : port'.At address xSocket
  kept : (port.contexts address).isSome → (port'.contexts address).isSome
  elsewhere : ∀ other ≠ address, port'.contexts other = port.contexts other

/-- The port has served a context in some way. -/
def ServesSome (address xSocket : Nat) (port port' : Port E) : Prop :=
  ∃ outputs, Serves address xSocket port outputs port'

theorem Serves.trans (hfirst : Serves address xSocket port outputs port')
    (hsecond : Serves address xSocket port' later port'') :
    Serves address xSocket port (outputs ++ later) port'' := by
  refine ⟨hfirst.appends.trans hsecond.appends, ?_, hsecond.at_address,
    fun hsome => hsecond.kept (hfirst.kept hsome),
    fun other hother => (hsecond.elsewhere other hother).trans (hfirst.elsewhere other hother)⟩
  intro output hmem
  rcases List.mem_append.mp hmem with hmem | hmem
  · exact hfirst.touches output hmem
  · exact hsecond.touches output hmem

theorem ServesSome.trans (hfirst : ServesSome address xSocket port port')
    (hsecond : ServesSome address xSocket port' port'') :
    ServesSome address xSocket port port'' := by
  obtain ⟨outputs, hfirst⟩ := hfirst
  obtain ⟨later, hsecond⟩ := hsecond
  exact ⟨outputs ++ later, hfirst.trans hsecond⟩

theorem ServesSome.at_address (h : ServesSome address xSocket port port') :
    port'.At address xSocket := by
  obtain ⟨_, h⟩ := h
  exact h.at_address

/-- Nothing is done, and the context may have been stored anew. -/
theorem serves_silent (houtputs : port'.outputs = port.outputs)
    (hat : port'.At address xSocket)
    (hkept : (port.contexts address).isSome → (port'.contexts address).isSome)
    (helsewhere : ∀ other ≠ address, port'.contexts other = port.contexts other) :
    ServesSome address xSocket port port' := by
  refine ⟨[], ?_, ?_, hat, hkept, helsewhere⟩
  · show port'.outputs = port.outputs ++ []
    rw [houtputs, List.append_nil]
  · exact fun _ hmem => absurd hmem List.not_mem_nil

theorem At.refl (h : port.At address xSocket) : ServesSome address xSocket port port :=
  serves_silent rfl h id fun _ _ => rfl

theorem At.emit (h : port.At address xSocket) {output : PortOutput}
    (htouches : output.Touches address xSocket) :
    Serves address xSocket port [output] (port.emit output) := by
  refine ⟨rfl, ?_, h, id, fun _ _ => rfl⟩
  intro other hmem
  rw [List.mem_singleton.mp hmem]
  exact htouches

theorem At.dereference (h : port.At address xSocket) :
    ServesSome address xSocket port (port.dereference address) :=
  ⟨_, h.emit (Or.inl rfl)⟩

/-- Serving a context uses it and its descriptor. -/
theorem Serves.uses (h : Serves address xSocket port outputs port') :
    Uses [.context address, .descriptor xSocket] (outputs.filterMap PortOutput.handleAction) := by
  intro action hmem
  obtain ⟨output, houtput, haction⟩ := List.mem_filterMap.mp hmem
  have htouches := h.touches output houtput
  cases output with
  | action done =>
      obtain rfl := Option.some.inj haction
      rcases htouches with rfl | rfl
      · exact ⟨_, List.mem_cons_self, rfl⟩
      · exact ⟨_, List.mem_cons_of_mem _ List.mem_cons_self, rfl⟩
  | memory done => cases haction
  | noSocket reported => cases haction
  | connected descriptor => cases haction

/-- Serving a context goes through its address only. -/
theorem Serves.handle (h : Serves address xSocket port outputs port') {handle : Nat}
    (hmem : .action (.use (.context handle)) ∈ outputs) : handle = address := by
  rcases h.touches _ hmem with hsame | hother
  · cases hsame
    rfl
  · cases hother

/-- Serving a context makes no socket. -/
theorem Serves.no_socket (h : Serves address xSocket port outputs port') (reported : Nat) :
    .noSocket reported ∉ outputs :=
  fun hmem => h.touches _ hmem

theorem At.call {α : Type} (h : port.At address xSocket) (f : E → α × E) :
    ServesSome address xSocket port (port.call f).2 :=
  serves_silent rfl h id fun _ _ => rfl

theorem At.callOn {α : Type} (h : port.At address xSocket) (f : E → α × E) :
    ServesSome address xSocket port (port.callOn xSocket f).2 := by
  have huse : PortOutput.Touches address xSocket (.action (.use (.descriptor xSocket))) :=
    Or.inr rfl
  have hemit := h.emit huse
  exact .trans ⟨_, hemit⟩ (hemit.at_address.call f)

theorem serves_set_context (port : Port E) (address : Nat) (pxContext : SSOCKETContext) :
    ServesSome address pxContext.xSocket port (port.setContext address pxContext) := by
  have hself : (port.setContext address pxContext).contexts address = some pxContext :=
    Function.update_self _ _ _
  refine serves_silent rfl ?_ ?_ ?_
  · intro other hother
    rw [hself, Option.some.injEq] at hother
    rw [← hother]
  · intro _
    rw [hself]
    rfl
  · exact fun other hother => Function.update_of_ne hother _ _

end Port

open Port

/-! ## Options -/

theorem serves_malloc_block (platform : Platform E) (h : port.At address xSocket) (size : Nat) :
    ServesSome address xSocket port (mallocBlock platform size port).2.2 := by
  have hcall := h.call (platform.malloc port.used size)
  unfold mallocBlock
  simp only
  split
  next => exact hcall
  next block _ => exact hcall.trans ⟨_, hcall.at_address.emit trivial⟩

theorem serves_copy_protocols (platform : Platform E) (h : port.At address xSocket)
    (protocols : List (List UInt8)) (ulProtocol : Nat) (hsocket : pxContext.xSocket = xSocket) :
    let copied := copyProtocols platform protocols ulProtocol pxContext port
    ServesSome address xSocket port copied.2.2 ∧ copied.2.1.xSocket = xSocket := by
  induction protocols generalizing port pxContext ulProtocol with
  | nil => exact ⟨h.refl, hsocket⟩
  | cons protocol rest ih =>
      have hcopy := serves_malloc_block platform h (1 + protocol.length)
      show ServesSome address xSocket port (ite _ _ _ : Int × SSOCKETContext × Port E).2.2 ∧
        (ite _ _ _ : Int × SSOCKETContext × Port E).2.1.xSocket = xSocket
      split_ifs
      · exact ⟨hcopy, hsocket⟩
      · refine And.imp_left hcopy.trans (ih hcopy.at_address (ulProtocol + 1) ?_)
        exact hsocket

theorem serves_set_alpn_protocols (platform : Platform E) (h : port.At address xSocket)
    (protocols : List (List UInt8)) (hsocket : pxContext.xSocket = xSocket) :
    let set := setAlpnProtocols platform protocols pxContext port
    ServesSome address xSocket port set.2.2 ∧ set.2.1.xSocket = xSocket := by
  have harray := serves_malloc_block platform h (1 + protocols.length)
  unfold setAlpnProtocols
  simp only
  split_ifs
  · exact ⟨harray, hsocket⟩
  · refine And.imp_left harray.trans
      (serves_copy_protocols platform harray.at_address protocols 0 ?_)
    exact hsocket

theorem serves_set_option (platform : Platform E) (h : port.At address xSocket) (lLevel : Int)
    (option : SocketOption) (hsocket : pxContext.xSocket = xSocket) :
    let set := setOption platform lLevel option pxContext port
    ServesSome address xSocket port set.2.2 ∧ set.2.1.xSocket = xSocket := by
  subst hsocket
  unfold setOption
  cases option with
  | serverNameIndication value => exact ⟨serves_malloc_block platform h _, rfl⟩
  | trustedServerCertificate value =>
      have hcopy := serves_malloc_block platform h value.length
      simp only
      split_ifs
      · exact ⟨hcopy, rfl⟩
      · exact ⟨hcopy, rfl⟩
  | requireTLS => exact ⟨h.refl, rfl⟩
  | alpnProtocols protocols => exact serves_set_alpn_protocols platform h protocols rfl
  | nonblock =>
      have hreceive := h.callOn (platform.setsockopt pxContext.xSocket lLevel soRcvtimeo)
      simp only
      split_ifs
      · exact ⟨hreceive.trans (hreceive.at_address.callOn _), trivial⟩
      · exact ⟨hreceive, trivial⟩
  | rcvtimeo => exact ⟨h.callOn _, rfl⟩
  | sndtimeo => exact ⟨h.callOn _, rfl⟩
  | other name => exact ⟨h.callOn _, rfl⟩

/-- `SOCKETS_SetSockOpt` goes through its handle at once. -/
theorem set_sock_opt_uses (platform : Platform E) (h : port.At address xSocket) (lLevel : Int)
    (option : SocketOption) :
    ∃ later, Serves address xSocket port (.action (.use (.context address)) :: later)
      (socketsSetSockOpt platform address lLevel option port).2 := by
  have hdereference : Serves address xSocket port [.action (.use (.context address))]
      (port.dereference address) := h.emit (Or.inl rfl)
  unfold socketsSetSockOpt
  simp only
  split
  next => exact ⟨[], hdereference⟩
  next pxContext hcontext =>
    obtain ⟨hset, hsocket⟩ := serves_set_option platform hdereference.at_address
      lLevel option (hdereference.at_address pxContext hcontext)
    obtain ⟨later, hlater⟩ := hset.trans (hsocket ▸ serves_set_context _ _ _)
    exact ⟨later, hdereference.trans hlater⟩

theorem serves_set_sock_opt (platform : Platform E) (h : port.At address xSocket) (lLevel : Int)
    (option : SocketOption) :
    ServesSome address xSocket port (socketsSetSockOpt platform address lLevel option port).2 := by
  obtain ⟨later, hserves⟩ := set_sock_opt_uses platform h lLevel option
  exact ⟨_, hserves⟩

/-! ## Connecting, receiving and shutting down -/

theorem serves_negotiate_tls (platform : Platform E) (h : port.At address xSocket)
    (hsocket : pxContext.xSocket = xSocket) :
    ServesSome address xSocket port (negotiateTLS platform address pxContext port).2 := by
  subst hsocket
  have hcall := h.call platform.tlsInit
  have hset := hcall.trans (serves_set_context _ address
    { pxContext with pvTLSContext := (port.call platform.tlsInit).1 })
  unfold negotiateTLS
  simp only
  split_ifs
  · have hdereference := hset.trans hset.at_address.dereference
    exact hdereference.trans (hdereference.at_address.callOn _)
  · exact hset

/-- A connection that is reported as made has been made. -/
theorem serves_connect (platform : Platform E) (h : port.At address xSocket)
    (pxAddress : SocketsSockaddr) : let connected := socketsConnect platform address pxAddress port
    ∃ outputs, Serves address xSocket port outputs connected.2 ∧
      (connected.1 = socketsErrorNone → .connected xSocket ∈ outputs) := by
  have hrefused : ∀ {port' : Port E}, ServesSome address xSocket port port' →
      ∃ outputs, Serves address xSocket port outputs port' ∧
        (socketsSocketError = socketsErrorNone → .connected xSocket ∈ outputs) := by
    rintro port' ⟨outputs, hserves⟩
    exact ⟨outputs, hserves, fun hstatus => by cases hstatus⟩
  have hdereference := h.dereference
  unfold socketsConnect
  simp only
  split_ifs
  · split
    next => exact hrefused hdereference
    next pxContext hcontext =>
      obtain rfl := hdereference.at_address pxContext hcontext
      have hlwip := hdereference.trans (hdereference.at_address.callOn
        (platform.connect pxContext.xSocket pxAddress.ulAddress pxAddress.usPort))
      generalize ((port.dereference address).callOn pxContext.xSocket _) = connected at hlwip ⊢
      have htls : ServesSome address pxContext.xSocket port
          (if connected.1 = socketsErrorNone ∧ pxContext.xRequireTLS then
            negotiateTLS platform address pxContext connected.2 else connected).2 := by
        split_ifs
        · exact hlwip.trans (serves_negotiate_tls platform hlwip.at_address rfl)
        · exact hlwip
      generalize (if connected.1 = socketsErrorNone ∧ pxContext.xRequireTLS then
        negotiateTLS platform address pxContext connected.2 else connected) = connected' at htls ⊢
      obtain ⟨outputs, htls⟩ := htls
      split_ifs with hstatus
      · exact ⟨_, htls.trans (htls.at_address.emit rfl), fun _ =>
          List.mem_append_right _ List.mem_cons_self⟩
      · exact ⟨outputs, htls, fun habsurd => absurd habsurd hstatus⟩
  · exact hrefused h.refl

theorem serves_recv (platform : Platform E) (h : port.At address xSocket)
    (xBufferLength ulFlags : Nat) : ServesSome address xSocket port
      (socketsRecv platform address xBufferLength ulFlags port).2 := by
  have hdereference := h.dereference
  unfold socketsRecv tlsRecv
  simp only
  split
  next => exact hdereference
  next pxContext hcontext =>
    obtain rfl := hdereference.at_address pxContext hcontext
    have hset := hdereference.trans
      (serves_set_context _ address { pxContext with xRecvFlags := ulFlags })
    split_ifs
    · exact hset.trans (hset.at_address.callOn _)
    · exact hset
    · exact hset.trans (hset.at_address.callOn _)
    · exact hset

theorem serves_send (platform : Platform E) (h : port.At address xSocket) (data : List UInt8)
    (ulFlags : Nat) :
    ServesSome address xSocket port (socketsSend platform address data ulFlags port).2 := by
  have hdereference := h.dereference
  unfold socketsSend tlsSend
  simp only
  split_ifs
  · split
    next => exact hdereference
    next pxContext hcontext =>
      obtain rfl := hdereference.at_address pxContext hcontext
      have hset := hdereference.trans
        (serves_set_context _ address { pxContext with xSendFlags := ulFlags })
      split_ifs
      · exact hset.trans (hset.at_address.callOn _)
      · exact hset
      · exact hset.trans (hset.at_address.callOn _)
  · exact h.refl

theorem serves_shutdown (platform : Platform E) (h : port.At address xSocket) (ulHow : Nat) :
    ServesSome address xSocket port (socketsShutdown platform address ulHow port).2 := by
  have hdereference := h.dereference
  unfold socketsShutdown
  simp only
  split
  next => exact hdereference
  next pxContext hcontext =>
    obtain rfl := hdereference.at_address pxContext hcontext
    exact hdereference.trans (hdereference.at_address.callOn _)

/-! ## Closing -/

/-- Outputs about blocks only. -/
def OnlyMemory (outputs : List PortOutput) : Prop :=
  ∀ output ∈ outputs, ∃ done, output = .memory done

theorem OnlyMemory.append (hfirst : OnlyMemory outputs) (hsecond : OnlyMemory later) :
    OnlyMemory (outputs ++ later) := by
  intro output hmem
  rcases List.mem_append.mp hmem with hmem | hmem
  · exact hfirst output hmem
  · exact hsecond output hmem

theorem OnlyMemory.no_handle_action (h : OnlyMemory outputs) :
    outputs.filterMap PortOutput.handleAction = [] := by
  rw [List.filterMap_eq_nil_iff]
  intro output hmem
  obtain ⟨done, rfl⟩ := h output hmem
  rfl

/-- The port has freed blocks and done nothing else. -/
def Frees (port port' : Port E) : Prop :=
  ∃ outputs, Appends port outputs port' ∧ OnlyMemory outputs

theorem Frees.refl (port : Port E) : Frees port port :=
  ⟨[], (List.append_nil _).symm, fun _ hmem => absurd hmem List.not_mem_nil⟩

theorem Frees.trans (hfirst : Frees port port') (hsecond : Frees port' port'') :
    Frees port port'' := by
  obtain ⟨outputs, happends, hmemory⟩ := hfirst
  obtain ⟨later, happends', hmemory'⟩ := hsecond
  exact ⟨outputs ++ later, happends.trans happends', hmemory.append hmemory'⟩

theorem frees_block (block : Nat) (port : Port E) : Frees port (freeBlock block port) := by
  unfold freeBlock
  split_ifs
  · refine ⟨[.memory (.release block)], rfl, ?_⟩
    intro output hmem
    exact ⟨_, List.mem_singleton.mp hmem⟩
  · exact .refl port

theorem frees_blocks (blockAt : Nat → Nat) (indices : List Nat) (port : Port E) :
    Frees port (indices.foldl (fun port i => freeBlock (blockAt i) port) port) := by
  induction indices generalizing port with
  | nil => exact .refl port
  | cons i rest ih => exact (frees_block _ port).trans (ih _)

/-- The actions of closing a context. -/
def closingActions (address xSocket : Nat) : List (Action Resource) :=
  [.use (.context address), .release (.descriptor xSocket), .release (.context address)]

/-- `SOCKETS_Close` appends outputs, goes through the address only, and for a context that exists
they close it. -/
theorem close_closes (platform : Platform E) (h : port.At address xSocket) :
    ∃ outputs, Appends port outputs (socketsClose platform address port) ∧
      (∀ reported, .noSocket reported ∉ outputs) ∧
      (∀ handle, .action (.use (.context handle)) ∈ outputs → handle = address) ∧
      (address ≠ 0 → (port.contexts address).isSome →
        outputs.filterMap PortOutput.handleAction = closingActions address xSocket) := by
  unfold socketsClose
  split_ifs with hnull
  · simp only
    split
    next hcontext =>
      refine ⟨[.action (.use (.context address))], rfl, by simp, by simp, ?_⟩
      intro _ hsome
      rw [show port.contexts address = none from hcontext] at hsome
      cases hsome
    next pxContext hcontext =>
      obtain rfl := h pxContext hcontext
      have hfreed : Frees (port.dereference address)
          (if pxContext.ppcAlpnProtocols ≠ 0 then
            freeBlock pxContext.ppcAlpnProtocols
              ((List.range pxContext.ulAlpnProtocolsCount).foldl
                (fun port ulProtocol => freeBlock (pxContext.alpnProtocols ulProtocol) port)
                (freeBlock pxContext.pcServerCertificate
                  (freeBlock pxContext.pcDestination (port.dereference address))))
          else freeBlock pxContext.pcServerCertificate
            (freeBlock pxContext.pcDestination (port.dereference address))) := by
        have htexts := (frees_block pxContext.pcDestination (port.dereference address)).trans
          (frees_block pxContext.pcServerCertificate _)
        split_ifs
        · exact (htexts.trans (frees_blocks _ _ _)).trans (frees_block _ _)
        · exact htexts
      obtain ⟨outputs, happends, hmemory⟩ := hfreed
      refine ⟨.action (.use (.context address)) :: (outputs ++
        [.action (.release (.descriptor pxContext.xSocket)),
          .action (.release (.context address))]), ?_, ?_, ?_, ?_⟩
      · unfold Appends at happends ⊢
        simp only [Port.emit, apply_ite Port.outputs, ite_self] at happends ⊢
        rw [happends]
        simp [Port.dereference, Port.emit]
      · intro reported hmem
        simp only [List.mem_cons, List.mem_append, reduceCtorEq, List.not_mem_nil, or_false,
          false_or] at hmem
        obtain ⟨done, hdone⟩ := hmemory _ hmem
        cases hdone
      · intro handle hmem
        rcases List.mem_cons.mp hmem with hfirst | hmem
        · cases hfirst
          rfl
        · rcases List.mem_append.mp hmem with hmem | hmem
          · obtain ⟨done, hdone⟩ := hmemory _ hmem
            cases hdone
          · simp at hmem
      · intro _ _
        show .use (.context address) :: (outputs ++ _).filterMap PortOutput.handleAction = _
        rw [List.filterMap_append, hmemory.no_handle_action]
        rfl
  · refine ⟨[], (List.append_nil _).symm, fun _ => List.not_mem_nil,
      fun _ hmem => absurd hmem List.not_mem_nil, ?_⟩
    exact fun hnonnull => absurd hnonnull hnull

theorem free_block_contexts (block : Nat) (port : Port E) :
    (freeBlock block port).contexts = port.contexts := by
  unfold freeBlock
  split_ifs
  · rfl
  · rfl

theorem free_blocks_contexts (blockAt : Nat → Nat) (indices : List Nat) (port : Port E) :
    (indices.foldl (fun port i => freeBlock (blockAt i) port) port).contexts = port.contexts := by
  induction indices generalizing port with
  | nil => rfl
  | cons i rest ih =>
      rw [List.foldl_cons, ih]
      exact free_block_contexts (blockAt i) port

/-- `SOCKETS_Close` leaves the other contexts alone. -/
theorem close_elsewhere (platform : Platform E) (port : Port E) {other : Nat}
    (h : other ≠ address) :
    (socketsClose platform address port).contexts other = port.contexts other := by
  unfold socketsClose
  split_ifs
  · simp only
    split
    next => rfl
    next pxContext hcontext =>
      simp only [Port.emit, Function.update_of_ne h, apply_ite Port.contexts, free_block_contexts,
        free_blocks_contexts, ite_self]
      rfl
  · rfl

/-! ## Opening -/

theorem Port.Appends.live (h : Appends port outputs port') :
    port'.live = remaining port.live (outputs.filterMap PortOutput.handleAction) := by
  unfold Port.live
  rw [h, List.filterMap_append, remaining_append]

theorem Port.Appends.blocks (h : Appends port outputs port') :
    port'.blocks = remaining port.blocks (outputs.filterMap PortOutput.blockAction) := by
  unfold Port.blocks
  rw [h, List.filterMap_append, remaining_append]

/-- lwIP has a descriptor, and there is memory for its context. -/
def Platform.GrantsSocket (platform : Platform E) (port : Port E) : Prop :=
  (platform.socket port.live port.environment).1.isSome ∧
    (platform.malloc port.used sizeofSSOCKETContext
      (platform.socket port.live port.environment).2).1.isSome

instance (port : Port E) : Decidable (platform.GrantsSocket port) :=
  inferInstanceAs (Decidable (_ ∧ _))

/-- A context and its descriptor have been acquired, and neither was there before. -/
structure Port.Opens (address xSocket : Nat) (port port' : Port E) : Prop where
  ne_null : address ≠ 0
  ne_invalid : address ≠ socketsInvalidSocket
  context_fresh : .context address ∉ port.live
  descriptor_fresh : .descriptor xSocket ∉ port.live
  appends : Appends port
    [.action (.acquire (.descriptor xSocket)), .action (.acquire (.context address))] port'
  at_address : port'.At address xSocket
  exists_context : (port'.contexts address).isSome
  elsewhere : ∀ other ≠ address, port'.contexts other = port.contexts other

/-- A new descriptor takes no memory. -/
theorem used_acquire_descriptor (port : Port E) (xSocket : Nat) (environment : E) :
    (Port.emit (.action (.acquire (.descriptor xSocket))) { port with environment }).used =
      port.used := by
  have happends : Appends port [.action (.acquire (.descriptor xSocket))]
      (Port.emit (.action (.acquire (.descriptor xSocket))) { port with environment }) := rfl
  unfold Port.used
  rw [happends.live, happends.blocks]
  rfl

/-- `SOCKETS_Socket` opens a socket if it gets what it asks for. -/
theorem socket_opens (h : platform.GrantsSocket port) :
    ∃ xSocket, port.Opens (socketsSocket platform port).1 xSocket
    (socketsSocket platform port).2 := by
  obtain ⟨hsocket, hmalloc⟩ := h
  unfold socketsSocket
  simp only [Port.call]
  split
  next hnone =>
    rw [hnone] at hsocket
    cases hsocket
  next descriptor hdescriptor =>
    rw [← used_acquire_descriptor port descriptor.xSocket
      (platform.socket port.live port.environment).2] at hmalloc
    split
    next hnone => exact absurd hnone (Option.isSome_iff_ne_none.mp hmalloc)
    next block hblock =>
      have hsame : ∀ taken ∈ port.used, taken ∈ (Port.emit
          (.action (.acquire (.descriptor descriptor.xSocket)))
          { port with environment := (platform.socket port.live port.environment).2 }).used := by
        rw [used_acquire_descriptor]
        exact fun taken hmem => hmem
      have hserves := serves_set_context port block.address (.cleared descriptor.xSocket)
      refine ⟨descriptor.xSocket, block.ne_null, block.ne_invalid, ?_, descriptor.fresh, ?_, ?_, ?_,
        fun other hother => Function.update_of_ne hother _ _⟩
      · intro hmem
        have hused : block.address ∈ port.used :=
          List.mem_append_left _ (List.mem_filterMap.mpr ⟨_, hmem, rfl⟩)
        exact block.fresh (hsame _ hused)
      · exact (List.append_assoc _ _ _)
      · exact hserves.at_address
      · show (Function.update port.contexts block.address _ block.address).isSome
        rw [Function.update_self]
        rfl

/-- `SOCKETS_Socket` returns `NULL` if it does not get what it asks for. -/
theorem socket_refused (h : ¬ platform.GrantsSocket port) :
    (socketsSocket platform port).1 = 0 ∧
      ∃ outputs, Appends port outputs (socketsSocket platform port).2 ∧ .noSocket 0 ∈ outputs := by
  unfold socketsSocket
  simp only [Port.call]
  split
  next => exact ⟨rfl, _, rfl, List.mem_cons_self⟩
  next descriptor hdescriptor =>
    split
    next hnone =>
      obtain ⟨xSocket, hat⟩ := Port.exists_at descriptor.xSocket
        (Port.emit (.action (.acquire (.descriptor descriptor.xSocket)))
          { port with environment := (platform.socket port.live port.environment).2 })
      obtain ⟨outputs, happends, -, -, -⟩ := close_closes platform (At.call hat
        (platform.malloc _ sizeofSSOCKETContext)).at_address
      have hopened : Appends port [.action (.acquire (.descriptor descriptor.xSocket))]
        (Port.emit (.action (.acquire (.descriptor descriptor.xSocket)))
          { port with environment := (platform.socket port.live port.environment).2 }) := rfl
      have hclosed := Appends.trans hopened happends
      refine ⟨rfl, _, Appends.trans hclosed (appends_emit (.noSocket 0) _), ?_⟩
      exact List.mem_append_right _ List.mem_cons_self
    next block hblock =>
      refine absurd ⟨?_, ?_⟩ h
      · rw [hdescriptor]
        rfl
      · rw [← used_acquire_descriptor port descriptor.xSocket
          (platform.socket port.live port.environment).2]
        exact Option.isSome_iff_exists.mpr ⟨block, hblock⟩

/-- A context that was opened stays live while it is served. -/
theorem Port.Opens.live (h : port.Opens address xSocket port')
    (hserves : Serves address xSocket port' outputs port'') :
    port''.live = .context address :: .descriptor xSocket :: port.live := by
  have huses : Uses (.context address :: .descriptor xSocket :: port.live)
      (outputs.filterMap PortOutput.handleAction) := hserves.uses.mono (by simp)
  rw [hserves.appends.live, h.appends.live]
  exact huses.safe.2

theorem get_host_found {pcHostName : List UInt8}
    (h : (platform.gethostbyname pcHostName port.environment).1.isSome) :
    (socketsGetHostByName platform pcHostName port).2 =
      { port with environment := (platform.gethostbyname pcHostName port.environment).2 } := by
  obtain ⟨ulAddress, hfound⟩ := Option.isSome_iff_exists.mp h
  unfold socketsGetHostByName
  simp only [Port.call, hfound]

theorem get_host_missing {pcHostName : List UInt8}
    (h : ¬ (platform.gethostbyname pcHostName port.environment).1.isSome) :
    Appends port [.action (.use (.context 0))]
      (socketsGetHostByName platform pcHostName port).2 := by
  have hnone := Option.not_isSome_iff_eq_none.mp h
  unfold socketsGetHostByName
  simp only [Port.call, hnone]
  rfl

end TivaAws.Sockets
