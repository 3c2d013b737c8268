import TivaAws.Sockets.Lifetimes

/-!
# The memory of socket options

`SOCKETS_SetSockOpt` copies server names, certificates and lists of protocols to memory that it
allocates, and `SOCKETS_Close` frees what the context points to then. The array for a list of
protocols is allocated with one byte for each pointer, so that even the `NULL` at its end is written
behind it. A second name or certificate takes the place of the first one, which is never freed.
Apart from these two, every element is inside its block and every block is freed once
(`options_sound_iff`).
-/

namespace TivaAws.Sockets

open Lifetime Port
open scoped List

variable {E : Type} {platform : Platform E} {xSocket : Nat} {port port' port'' : Port E}
  {pxContext : SSOCKETContext} {acquired : List Nat}

/-! ## Elements -/

/-- An element that is written to a block: the size of the block, the offset in it and the size of
the element. -/
structure Store where
  size : Nat
  offset : Nat
  width : Nat
  deriving DecidableEq, Repr

/-- The element is inside the block. -/
def Store.Inside (store : Store) : Prop := store.offset + store.width ≤ store.size

instance : DecidablePred Store.Inside := fun _ => inferInstanceAs (Decidable (_ ≤ _))

/-- `sizeof( char * )`. -/
def sizeofPointer : Nat := 4

/-- A string is copied to a block with room for a NUL, which is written behind it. -/
def stringStores (length : Nat) : List Store := [⟨1 + length, 0, length⟩, ⟨1 + length, length, 1⟩]

/-- What the loop that copies the protocol strings writes: pointers to the array, `size` bytes in
size, and strings. -/
def protocolStores (platform : Platform E) (size : Nat) :
    List (List UInt8) → Nat → Port E → List Store
  | [], _, _ => []
  | protocol :: rest, ulProtocol, port =>
      let copy := mallocBlock platform (1 + protocol.length) port
      ⟨size, sizeofPointer * ulProtocol, sizeofPointer⟩ ::
        if copy.1 = 0 then []
        else
          stringStores protocol.length ++
            protocolStores platform size rest (ulProtocol + 1) copy.2.2

/-- What an option writes to the memory that it allocates. -/
def optionStores (platform : Platform E) (option : SocketOption) (port : Port E) : List Store :=
  match option with
  | .serverNameIndication pvOptionValue =>
      if (mallocBlock platform (1 + pvOptionValue.length) port).1 = 0 then []
      else stringStores pvOptionValue.length
  | .trustedServerCertificate pvOptionValue =>
      if (mallocBlock platform pvOptionValue.length port).1 = 0 then []
      else [⟨pvOptionValue.length, 0, pvOptionValue.length⟩]
  | .alpnProtocols ppcAlpnIn =>
      let ulAlpnProtocolsCount := 1 + ppcAlpnIn.length
      let array := mallocBlock platform ulAlpnProtocolsCount port
      if array.1 = 0 then []
      else
        ⟨ulAlpnProtocolsCount, sizeofPointer * (ulAlpnProtocolsCount - 1), sizeofPointer⟩ ::
          protocolStores platform ulAlpnProtocolsCount ppcAlpnIn 0 array.2.2
  | _ => []

/-- An option that wants memory for a list of protocols gets none. -/
def ArrayDenied (platform : Platform E) (option : SocketOption) (port : Port E) : Prop :=
  match option with
  | .alpnProtocols ppcAlpnIn => (mallocBlock platform (1 + ppcAlpnIn.length) port).1 = 0
  | _ => True

/-- The elements are inside their blocks just if there is no list of protocols. -/
theorem stores_inside_iff (platform : Platform E) (option : SocketOption) (port : Port E) :
    (∀ store ∈ optionStores platform option port, store.Inside) ↔
      ArrayDenied platform option port := by
  have hstring : ∀ (length : Nat), ∀ store ∈ stringStores length, store.Inside := by
    intro length store hmem
    unfold stringStores at hmem
    simp only [List.mem_cons, List.not_mem_nil, or_false] at hmem
    unfold Store.Inside
    rcases hmem with rfl | rfl
    · show 0 + length ≤ 1 + length
      omega
    · show length + 1 ≤ 1 + length
      omega
  cases option with
  | serverNameIndication pvOptionValue =>
      refine iff_of_true ?_ trivial
      unfold optionStores
      simp only
      split_ifs
      · exact fun _ hmem => absurd hmem List.not_mem_nil
      · exact hstring _
  | trustedServerCertificate pvOptionValue =>
      refine iff_of_true ?_ trivial
      unfold optionStores
      simp only
      split_ifs
      · exact fun _ hmem => absurd hmem List.not_mem_nil
      · intro store hmem
        rw [List.mem_singleton.mp hmem]
        exact Nat.le_of_eq (Nat.zero_add _)
  | alpnProtocols ppcAlpnIn =>
      unfold optionStores ArrayDenied
      simp only
      by_cases hnull : (mallocBlock platform (1 + ppcAlpnIn.length) port).1 = 0
      · rw [if_pos hnull]
        exact iff_of_true (fun _ hmem => absurd hmem List.not_mem_nil) hnull
      · rw [if_neg hnull]
        refine iff_of_false (fun h => ?_) hnull
        -- The last element of the array.
        have hinside : 4 * (1 + ppcAlpnIn.length - 1) + 4 ≤ 1 + ppcAlpnIn.length :=
          h _ List.mem_cons_self
        omega
  | requireTLS | nonblock | rcvtimeo | sndtimeo | other _ =>
      exact iff_of_true (fun _ hmem => absurd hmem List.not_mem_nil) trivial

/-! ## Blocks -/

/-- The port has done something that amounts to these actions on blocks. -/
def MovesBlocks (port : Port E) (actions : List (Action Nat)) (port' : Port E) : Prop :=
  ∃ outputs, Appends port outputs port' ∧ outputs.filterMap PortOutput.blockAction = actions

theorem MovesBlocks.refl (h : port'.outputs = port.outputs) : MovesBlocks port [] port' := by
  refine ⟨[], ?_, rfl⟩
  unfold Appends
  rw [h, List.append_nil]

theorem MovesBlocks.trans {first second : List (Action Nat)} (hfirst : MovesBlocks port first port')
    (hsecond : MovesBlocks port' second port'') : MovesBlocks port (first ++ second) port'' := by
  obtain ⟨outputs, happends, rfl⟩ := hfirst
  obtain ⟨later, happends', rfl⟩ := hsecond
  exact ⟨outputs ++ later, happends.trans happends', List.filterMap_append⟩

/-- An output that is not about blocks. -/
theorem moves_blocks_emit (port : Port E) {output : PortOutput} (h : output.blockAction = none) :
    MovesBlocks port [] (port.emit output) := by
  refine ⟨[output], rfl, ?_⟩
  rw [List.filterMap_cons_none h]
  rfl

theorem MovesBlocks.unique {first second : List (Action Nat)}
    (hfirst : MovesBlocks port first port')
    (hsecond : MovesBlocks port second port') : first = second := by
  obtain ⟨outputs, happends, rfl⟩ := hfirst
  obtain ⟨outputs', happends', rfl⟩ := hsecond
  rw [List.append_cancel_left (happends.symm.trans happends')]

theorem MovesBlocks.blocks {actions : List (Action Nat)} (h : MovesBlocks port actions port') :
    port'.blocks = remaining port.blocks actions := by
  obtain ⟨outputs, happends, rfl⟩ := h
  exact happends.blocks

/-- Blocks are allocated, at most one of them, which is new. -/
structure Allocates (port : Port E) (acquired : List Nat) (port' : Port E) : Prop where
  moves : MovesBlocks port (acquired.map .acquire) port'
  length_le : acquired.length ≤ 1
  fresh : ∀ block ∈ acquired, block ≠ 0 ∧ block ∉ port.blocks

theorem Allocates.safe (h : Allocates port acquired port') :
    Safe port.blocks (acquired.map .acquire) := by
  have hlength := h.length_le
  have hfresh := h.fresh
  match acquired with
  | [] => trivial
  | [block] => exact ⟨(hfresh block List.mem_cons_self).2, trivial⟩
  | _ :: _ :: rest =>
      rw [List.length_cons, List.length_cons] at hlength
      omega

/-- `pvPortMalloc` returns the address of the block, zero if there is none. -/
theorem malloc_allocates (platform : Platform E) (size : Nat) (port : Port E) :
    ∃ acquired, Allocates port acquired (mallocBlock platform size port).2.2 ∧
      (mallocBlock platform size port).1 = acquired.headD 0 ∧
      (mallocBlock platform size port).2.2.contexts = port.contexts := by
  unfold mallocBlock
  simp only
  split
  next =>
    exact ⟨[], ⟨.refl rfl, Nat.zero_le 1, fun _ hmem => absurd hmem List.not_mem_nil⟩, rfl, rfl⟩
  next block _ =>
    refine ⟨[block.address], ⟨⟨[.memory (.acquire block.address)], rfl, rfl⟩, Nat.le_refl 1, ?_⟩,
      rfl, rfl⟩
    intro other hmem
    rw [List.mem_singleton.mp hmem]
    exact ⟨block.ne_null, fun hlive => block.fresh (List.mem_append_right _ hlive)⟩

/-! ## One option -/

/-- The block that a pointer points to. -/
def pointedBlock (address : Nat) : List Nat := if address ≠ 0 then [address] else []

theorem pointed_block_null : pointedBlock 0 = [] := rfl

theorem pointed_block_ne {address : Nat} (h : address ≠ 0) : pointedBlock address = [address] :=
  if_pos h

/-- The pointer to what has been allocated. -/
theorem pointed_block_head (hacquired : acquired.length ≤ 1)
    (hfresh : ∀ block ∈ acquired, block ≠ 0) : pointedBlock (acquired.headD 0) = acquired := by
  match acquired with
  | [] => rfl
  | [block] => exact pointed_block_ne (hfresh block List.mem_cons_self)
  | _ :: _ :: rest =>
      rw [List.length_cons, List.length_cons] at hacquired
      omega

/-- The blocks that a context without a list of protocols points to. -/
def SSOCKETContext.pointers (pxContext : SSOCKETContext) : List Nat :=
  pointedBlock pxContext.pcDestination ++ pointedBlock pxContext.pcServerCertificate

/-- A name or a certificate does not take the place of another one. -/
def KeepsPointers (option : SocketOption) (pxContext : SSOCKETContext) : Prop :=
  match option with
  | .serverNameIndication _ => pxContext.pcDestination = 0
  | .trustedServerCertificate _ => pxContext.pcServerCertificate = 0
  | _ => True

/-- What becomes of the pointers of a context. -/
structure Assigns (option : SocketOption) (before : SSOCKETContext) (acquired : List Nat)
    (after : SSOCKETContext) : Prop where
  no_array : after.ppcAlpnProtocols = 0
  /-- No more pointers than before and as many as there are new blocks. -/
  length_le : after.pointers.length ≤ acquired.length + before.pointers.length
  /-- A pointer that is overwritten is missing. -/
  keeps_of_length : acquired.length + before.pointers.length ≤ after.pointers.length →
    KeepsPointers option before
  perm : KeepsPointers option before → after.pointers ~ acquired ++ before.pointers

/-- A server name that has been copied. -/
theorem assigns_name {pvOptionValue : List UInt8} (hacquired : acquired.length ≤ 1)
    (hfresh : ∀ block ∈ acquired, block ≠ 0) (hnone : pxContext.ppcAlpnProtocols = 0) :
    Assigns (.serverNameIndication pvOptionValue) pxContext acquired
      { pxContext with pcDestination := acquired.headD 0 } := by
  have hafter : SSOCKETContext.pointers { pxContext with pcDestination := acquired.headD 0 } =
      acquired ++ pointedBlock pxContext.pcServerCertificate :=
    congrArg (· ++ pointedBlock pxContext.pcServerCertificate)
      (pointed_block_head hacquired hfresh)
  refine ⟨hnone, ?_, fun hlength => ?_, fun hkeeps => ?_⟩
  · rw [hafter, SSOCKETContext.pointers, List.length_append, List.length_append]
    omega
  · by_contra hname
    change pxContext.pcDestination ≠ 0 at hname
    rw [hafter, SSOCKETContext.pointers, List.length_append, List.length_append,
      pointed_block_ne hname, List.length_singleton] at hlength
    omega
  · rw [hafter, SSOCKETContext.pointers, show pxContext.pcDestination = 0 from hkeeps,
      pointed_block_null, List.nil_append]

/-- A certificate that has been copied, with its length. -/
theorem assigns_certificate {pvOptionValue : List UInt8} (length : Nat)
    (hacquired : acquired.length ≤ 1) (hfresh : ∀ block ∈ acquired, block ≠ 0)
    (hnone : pxContext.ppcAlpnProtocols = 0) :
    Assigns (.trustedServerCertificate pvOptionValue) pxContext acquired
      { pxContext with
        pcServerCertificate := acquired.headD 0
        ulServerCertificateLength := length } := by
  have hafter : SSOCKETContext.pointers { pxContext with
      pcServerCertificate := acquired.headD 0, ulServerCertificateLength := length } =
        pointedBlock pxContext.pcDestination ++ acquired :=
    congrArg (pointedBlock pxContext.pcDestination ++ ·) (pointed_block_head hacquired hfresh)
  refine ⟨hnone, ?_, fun hlength => ?_, fun hkeeps => ?_⟩
  · rw [hafter, SSOCKETContext.pointers, List.length_append, List.length_append]
    omega
  · by_contra hcertificate
    change pxContext.pcServerCertificate ≠ 0 at hcertificate
    rw [hafter, SSOCKETContext.pointers, List.length_append, List.length_append,
      pointed_block_ne hcertificate, List.length_singleton] at hlength
    omega
  · rw [hafter, SSOCKETContext.pointers, show pxContext.pcServerCertificate = 0 from hkeeps,
      pointed_block_null, List.append_nil]
    exact List.perm_append_comm

/-- Nothing is allocated, and the pointers stay. -/
theorem assigns_nothing {option : SocketOption} {after : SSOCKETContext}
    (hkeeps : KeepsPointers option pxContext) (hpointers : after.pointers = pxContext.pointers)
    (hnone : after.ppcAlpnProtocols = 0) : Assigns option pxContext [] after := by
  refine ⟨hnone, ?_, fun _ => hkeeps, fun _ => ?_⟩
  · rw [hpointers]
    exact Nat.le_of_eq (Nat.zero_add _).symm
  · rw [hpointers]
    exact .refl _

theorem Allocates.nothing (h : MovesBlocks port [] port') : Allocates port [] port' :=
  ⟨h, Nat.zero_le 1, fun _ hmem => absurd hmem List.not_mem_nil⟩

/-- What an option does to the memory if it allocates no list of protocols. -/
theorem set_option_assigns (platform : Platform E) (lLevel : Int) (option : SocketOption)
    (port : Port E) (hdenied : ArrayDenied platform option port)
    (hnone : pxContext.ppcAlpnProtocols = 0) :
    ∃ acquired, Allocates port acquired (setOption platform lLevel option pxContext port).2.2 ∧
      Assigns option pxContext acquired (setOption platform lLevel option pxContext port).2.1 := by
  have hcall : ∀ (optname : Int) (port : Port E), MovesBlocks port []
      (port.callOn pxContext.xSocket
        (platform.setsockopt pxContext.xSocket lLevel optname)).2 :=
    fun optname port => (moves_blocks_emit port rfl).trans (.refl rfl)
  -- Without the array of a protocol list an option allocates one block or none.
  cases option with
  | serverNameIndication pvOptionValue =>
      obtain ⟨acquired, hallocates, haddress, -⟩ :=
        malloc_allocates platform (1 + pvOptionValue.length) port
      refine ⟨acquired, hallocates, ?_⟩
      show Assigns _ pxContext acquired { pxContext with pcDestination := _ }
      rw [haddress]
      exact assigns_name hallocates.length_le (fun block hmem => (hallocates.fresh block hmem).1)
        hnone
  | trustedServerCertificate pvOptionValue =>
      obtain ⟨acquired, hallocates, haddress, -⟩ :=
        malloc_allocates platform pvOptionValue.length port
      have hassigns : ∀ length, Assigns (.trustedServerCertificate pvOptionValue) pxContext acquired
          { pxContext with
            pcServerCertificate := acquired.headD 0
            ulServerCertificateLength := length } := fun length =>
        assigns_certificate length hallocates.length_le
          (fun block hmem => (hallocates.fresh block hmem).1) hnone
      unfold setOption
      simp only
      split_ifs with hnull
      · rw [haddress] at hnull
        refine ⟨acquired, hallocates, ?_⟩
        have hassigned := hassigns pxContext.ulServerCertificateLength
        rw [hnull] at hassigned
        exact hassigned
      · refine ⟨acquired, hallocates, ?_⟩
        rw [haddress]
        exact hassigns pvOptionValue.length
  | alpnProtocols ppcAlpnIn =>
      obtain ⟨acquired, hallocates, haddress, -⟩ :=
        malloc_allocates platform (1 + ppcAlpnIn.length) port
      have hnull : (mallocBlock platform (1 + ppcAlpnIn.length) port).1 = 0 := hdenied
      have hempty : acquired = [] := by
        cases acquired with
        | nil => rfl
        | cons block rest =>
            rw [haddress] at hnull
            exact absurd hnull (hallocates.fresh block List.mem_cons_self).1
      subst hempty
      unfold setOption setAlpnProtocols
      simp only
      rw [if_pos hnull]
      exact ⟨[], hallocates, assigns_nothing trivial rfl hnull⟩
  | requireTLS => exact ⟨[], .nothing (.refl rfl), assigns_nothing trivial rfl hnone⟩
  | nonblock =>
      refine ⟨[], .nothing ?_, assigns_nothing trivial rfl hnone⟩
      unfold setOption
      simp only
      split_ifs
      · exact (hcall soRcvtimeo port).trans (hcall soSndtimeo _)
      · exact hcall soRcvtimeo port
  | rcvtimeo =>
      exact ⟨[], .nothing (hcall soRcvtimeo port), assigns_nothing trivial rfl hnone⟩
  | sndtimeo =>
      exact ⟨[], .nothing (hcall soSndtimeo port), assigns_nothing trivial rfl hnone⟩
  | other lOptionName =>
      exact ⟨[], .nothing (hcall lOptionName port), assigns_nothing trivial rfl hnone⟩

/-! ## Options one after the other -/

/-- Set options on a socket. -/
def setSockOpts (platform : Platform E) (xSocket : Nat) :
    List (Int × SocketOption) → Port E → Port E
  | [], port => port
  | (lLevel, option) :: rest, port =>
      setSockOpts platform xSocket rest (socketsSetSockOpt platform xSocket lLevel option port).2

/-- What holds of every option, the context that it is set on and the port when it is. -/
def Along (platform : Platform E) (xSocket : Nat)
    (P : SocketOption → SSOCKETContext → Port E → Prop) : List (Int × SocketOption) → Port E → Prop
  | [], _ => True
  | (lLevel, option) :: rest, port =>
      (∀ pxContext ∈ port.contexts xSocket, P option pxContext (port.dereference xSocket)) ∧
        Along platform xSocket P rest (socketsSetSockOpt platform xSocket lLevel option port).2

section Along

variable {P Q : SocketOption → SSOCKETContext → Port E → Prop}
  {options : List (Int × SocketOption)}

theorem along_congr
    (h : ∀ option pxContext port, P option pxContext port ↔ Q option pxContext port) :
    Along platform xSocket P options port ↔ Along platform xSocket Q options port := by
  rw [show P = Q from funext fun _ => funext fun _ => funext fun _ => propext (h _ _ _)]

theorem along_and : Along platform xSocket (fun option pxContext port => P option pxContext port ∧
      Q option pxContext port) options port ↔
    Along platform xSocket P options port ∧ Along platform xSocket Q options port := by
  induction options generalizing port with
  | nil => exact (and_self_iff).symm
  | cons first rest ih =>
      unfold Along
      rw [ih, and_and_and_comm, ← forall₂_and]

end Along

/-- An option is set on a context without a list of protocols. -/
theorem set_sock_opt_assigns (platform : Platform E) (lLevel : Int) (option : SocketOption)
    (hcontext : port.contexts xSocket = some pxContext)
    (hdenied : ArrayDenied platform option (port.dereference xSocket))
    (hnone : pxContext.ppcAlpnProtocols = 0) :
    ∃ acquired after,
      Allocates port acquired (socketsSetSockOpt platform xSocket lLevel option port).2 ∧
        (socketsSetSockOpt platform xSocket lLevel option port).2.contexts xSocket = some after ∧
        Assigns option pxContext acquired after := by
  obtain ⟨acquired, hallocates, hassigns⟩ :=
    set_option_assigns platform lLevel option (port.dereference xSocket) hdenied hnone
  have hdereference : MovesBlocks port [] (port.dereference xSocket) := moves_blocks_emit port rfl
  have hset : (socketsSetSockOpt platform xSocket lLevel option port).2 =
      (setOption platform lLevel option pxContext (port.dereference xSocket)).2.2.setContext xSocket
        (setOption platform lLevel option pxContext (port.dereference xSocket)).2.1 := by
    unfold socketsSetSockOpt
    simp only
    rw [show (port.dereference xSocket).contexts xSocket = some pxContext from hcontext]
  refine ⟨acquired, _, ⟨?_, hallocates.length_le, ?_⟩, ?_, hassigns⟩
  · obtain ⟨outputs, happends, hactions⟩ := hdereference.trans hallocates.moves
    rw [hset]
    exact ⟨outputs, happends, hactions⟩
  · have hfresh := hallocates.fresh
    rw [hdereference.blocks] at hfresh
    exact hfresh
  · rw [hset]
    exact Function.update_self _ _ _

/-- What options do to the memory if they allocate no list of protocols. -/
structure SetsPointers (platform : Platform E) (xSocket : Nat) (options : List (Int × SocketOption))
    (port : Port E) (before : SSOCKETContext) (acquired : List Nat) (after : SSOCKETContext) :
    Prop where
  moves : MovesBlocks port (acquired.map .acquire) (setSockOpts platform xSocket options port)
  safe : Safe port.blocks (acquired.map .acquire)
  context : (setSockOpts platform xSocket options port).contexts xSocket = some after
  no_array : after.ppcAlpnProtocols = 0
  length_le : after.pointers.length ≤ acquired.length + before.pointers.length
  keeps_of_length : acquired.length + before.pointers.length ≤ after.pointers.length →
    Along platform xSocket (fun option pxContext _ => KeepsPointers option pxContext) options port
  perm : Along platform xSocket (fun option pxContext _ => KeepsPointers option pxContext)
    options port → after.pointers ~ acquired ++ before.pointers

theorem set_sock_opts_pointers (options : List (Int × SocketOption))
    (hcontext : port.contexts xSocket = some pxContext) (hnone : pxContext.ppcAlpnProtocols = 0)
    (hdenied : Along platform xSocket (fun option _ port => ArrayDenied platform option port)
      options port) :
    ∃ acquired after, SetsPointers platform xSocket options port pxContext acquired after := by
  induction options generalizing port pxContext with
  | nil =>
      refine ⟨[], pxContext, .refl rfl, trivial, hcontext, hnone, ?_, fun _ => trivial,
        fun _ => .refl _⟩
      exact Nat.le_of_eq (Nat.zero_add _).symm
  | cons first rest ih =>
      obtain ⟨lLevel, option⟩ := first
      obtain ⟨hfirst, hrest⟩ := hdenied
      obtain ⟨acquired, middle, hallocates, hmiddle, hassigns⟩ :=
        set_sock_opt_assigns platform lLevel option hcontext (hfirst pxContext hcontext) hnone
      obtain ⟨later, after, hlater⟩ := ih hmiddle hassigns.no_array hrest
      have hfirstLength := hassigns.length_le
      have hlaterLength := hlater.length_le
      have hsafe := hlater.safe
      rw [hallocates.moves.blocks] at hsafe
      refine ⟨acquired ++ later, after, ?_, ?_, hlater.context, hlater.no_array, ?_, ?_, ?_⟩
      · rw [List.map_append]
        exact hallocates.moves.trans hlater.moves
      · rw [List.map_append]
        exact safe_append.mpr ⟨hallocates.safe, hsafe⟩
      · rw [List.length_append]
        omega
      · intro hlength
        rw [List.length_append] at hlength
        refine ⟨fun found hfound => ?_, hlater.keeps_of_length (by omega)⟩
        rw [hcontext] at hfound
        cases hfound
        exact hassigns.keeps_of_length (by omega)
      · intro hkeeps
        have hperm := hassigns.perm (hkeeps.1 pxContext hcontext)
        refine (hlater.perm hkeeps.2).trans ((hperm.append_left later).trans ?_)
        rw [← List.append_assoc]
        exact List.perm_append_comm.append_right _

/-! ## Closing -/

theorem free_block_moves (address : Nat) (port : Port E) :
    MovesBlocks port ((pointedBlock address).map .release) (freeBlock address port) := by
  unfold freeBlock pointedBlock
  split_ifs
  · exact ⟨[.memory (.release address)], rfl, rfl⟩
  · exact .refl rfl

/-- Without a list of protocols, `SOCKETS_Close` frees the server name and the certificate. -/
theorem close_moves (platform : Platform E) (hnull : xSocket ≠ 0)
    (hcontext : port.contexts xSocket = some pxContext) (hnone : pxContext.ppcAlpnProtocols = 0) :
    MovesBlocks port (pxContext.pointers.map .release) (socketsClose platform xSocket port) := by
  have hfreed : MovesBlocks port (pxContext.pointers.map .release)
      (freeBlock pxContext.pcServerCertificate
        (freeBlock pxContext.pcDestination (port.dereference xSocket))) := by
    have hname := (moves_blocks_emit port rfl).trans
      (free_block_moves pxContext.pcDestination (port.dereference xSocket))
    have hboth := hname.trans (free_block_moves pxContext.pcServerCertificate _)
    rw [List.nil_append] at hboth
    unfold SSOCKETContext.pointers
    rw [List.map_append]
    exact hboth
  obtain ⟨outputs, happends, hactions⟩ := hfreed
  unfold socketsClose
  rw [if_pos hnull]
  simp only
  rw [show (port.dereference xSocket).contexts xSocket = some pxContext from hcontext]
  simp only
  rw [if_neg (not_not.mpr hnone)]
  refine ⟨outputs ++ [.action (.release (.descriptor pxContext.xSocket)),
    .action (.release (.context xSocket))], ?_, ?_⟩
  · unfold Appends at happends ⊢
    simp only [Port.emit, apply_ite Port.outputs, ite_self]
    rw [happends, List.append_assoc, List.append_assoc]
    rfl
  · rw [List.filterMap_append, hactions]
    exact List.append_nil _

/-! ## Memory of the options -/

/-- What options and the end of a socket keep to: every element that is written is inside the block
that has been allocated for it, only allocated blocks are freed, and every block is freed as often
as it is allocated. -/
structure OptionsSound (platform : Platform E) (xSocket : Nat) (options : List (Int × SocketOption))
    (port : Port E) : Prop where
  inside : Along platform xSocket
    (fun option _ port => ∀ store ∈ optionStores platform option port, store.Inside) options port
  freed : ∃ actions,
    MovesBlocks port actions (socketsClose platform xSocket
      (setSockOpts platform xSocket options port)) ∧
    Safe port.blocks actions ∧ ∀ block,
      actions.count (.release block) = actions.count (.acquire block)

/-- There is no memory for a list of protocols, and no name or certificate takes the place of
another one. -/
def OptionFits (platform : Platform E) (option : SocketOption) (pxContext : SSOCKETContext)
    (port : Port E) : Prop :=
  ArrayDenied platform option port ∧ KeepsPointers option pxContext

/-- `SOCKETS_Socket` makes a context without any memory for options. -/
theorem socket_context (h : (socketsSocket platform port).1 ≠ 0) :
    ∃ descriptor, (socketsSocket platform port).2.contexts (socketsSocket platform port).1 =
      some (.cleared descriptor) := by
  unfold socketsSocket at h ⊢
  simp only at h ⊢
  split at h
  next => exact absurd rfl h
  next descriptor _ =>
    split at h
    next => exact absurd rfl h
    next block _ => exact ⟨descriptor.xSocket, Function.update_self _ _ _⟩

/-- Options are set on a socket that has just been made, in any order and however the allocator
answers, and then the socket is closed. Every element is inside its block and every block is freed
exactly once just if no list of protocols gets any memory and no server name or certificate is set
while there is one. -/
theorem options_sound_iff (platform : Platform E) (port : Port E)
    (hopened : (socketsSocket platform port).1 ≠ 0) (options : List (Int × SocketOption)) :
    OptionsSound platform (socketsSocket platform port).1 options (socketsSocket platform port).2 ↔
      Along platform (socketsSocket platform port).1 (OptionFits platform) options
        (socketsSocket platform port).2 := by
  obtain ⟨descriptor, hcontext⟩ := socket_context hopened
  generalize (socketsSocket platform port).1 = xSocket at *
  generalize (socketsSocket platform port).2 = opened at *
  have hinside : Along platform xSocket
      (fun option _ port => ∀ store ∈ optionStores platform option port, store.Inside)
        options opened ↔
      Along platform xSocket (fun option _ port => ArrayDenied platform option port)
        options opened := along_congr fun option _ port => stores_inside_iff platform option port
  have hfits : Along platform xSocket (OptionFits platform) options opened ↔ _ ∧ _ := along_and
  rw [hfits]
  -- Without lists of protocols, both sides compare what is allocated with what is pointed to.
  have hfreed : Along platform xSocket (fun option _ port => ArrayDenied platform option port)
      options opened →
      ((∃ actions, MovesBlocks opened actions (socketsClose platform xSocket
          (setSockOpts platform xSocket options opened)) ∧ Safe opened.blocks actions ∧
            ∀ block, actions.count (.release block) = actions.count (.acquire block)) ↔
        Along platform xSocket (fun option pxContext _ => KeepsPointers option pxContext)
          options opened) := by
    intro hdenied
    obtain ⟨acquired, after, hsets⟩ := set_sock_opts_pointers options hcontext rfl hdenied
    have hmoves := hsets.moves.trans (close_moves platform hopened hsets.context hsets.no_array)
    have hempty : acquired.length + (SSOCKETContext.cleared descriptor).pointers.length =
        acquired.length := rfl
    constructor
    · rintro ⟨actions, hactions, -, hcount⟩
      obtain rfl := hactions.unique hmoves
      have hperm := count_release_eq_iff.mp hcount
      exact hsets.keeps_of_length (Nat.le_of_eq (hempty.trans hperm.length_eq.symm))
    · intro hkeeps
      have hperm : after.pointers ~ acquired := by
        have hperm := hsets.perm hkeeps
        rw [show (SSOCKETContext.cleared descriptor).pointers = [] from rfl,
          List.append_nil] at hperm
        exact hperm
      refine ⟨_, hmoves, safe_append.mpr ⟨hsets.safe, ?_⟩, count_release_eq_iff.mpr hperm⟩
      refine safe_releases (hperm.nodup_iff.mpr (nodup_of_safe_acquires hsets.safe).1) ?_
      intro block hmem
      exact mem_remaining_acquires.mpr (Or.inl (hperm.mem_iff.mp hmem))
  constructor
  · intro h
    have hdenied := hinside.mp h.inside
    exact ⟨hdenied, (hfreed hdenied).mp h.freed⟩
  · rintro ⟨hdenied, hkeeps⟩
    exact ⟨hinside.mpr hdenied, (hfreed hdenied).mpr hkeeps⟩

/-! ## A platform with memory -/

/-- A platform with one descriptor that counts the blocks it allocates. -/
def benchPlatform : Platform Nat where
  gethostbyname _ e := (none, e)
  socket live e := (if h : .descriptor 0 ∉ live then some ⟨0, h⟩ else none, e)
  setsockopt _ _ _ e := (0, e)
  connect _ _ _ e := (-1, e)
  recv _ _ _ e := (.error 0, e)
  send _ _ _ e := (-1, e)
  shutdown _ _ e := (0, e)
  close _ e := e
  malloc used _ e :=
    (if h : e ≠ 0 ∧ e ≠ socketsInvalidSocket ∧ e ∉ used then
      some ⟨e, fun _ => 0, h.2.2, h.1, h.2.1⟩ else none, e + 1)
  tlsInit e := (false, e)
  tlsConnect e := (-1, e)
  tlsRecv _ e := (.error 0, e)
  tlsSend _ e := (-1, e)
  tlsCleanup e := e

/-- No socket has been made yet. -/
def benchPort : Port Nat := ⟨fun _ => none, [], 1⟩

/-- With a server name and a certificate, the memory is in order. -/
theorem options_sound_name_certificate :
    (socketsSocket benchPlatform benchPort).1 ≠ 0 ∧
      OptionsSound benchPlatform (socketsSocket benchPlatform benchPort).1
        [(0, .serverNameIndication [0x61]), (0, .trustedServerCertificate [0x62, 0x63])]
        (socketsSocket benchPlatform benchPort).2 := by
  have hopened : (socketsSocket benchPlatform benchPort).1 ≠ 0 := by decide
  refine ⟨hopened, (options_sound_iff benchPlatform benchPort hopened _).mpr ⟨?_, ?_, trivial⟩⟩
  · intro pxContext hcontext
    cases hcontext
    exact ⟨trivial, rfl⟩
  · intro pxContext hcontext
    cases hcontext
    exact ⟨trivial, rfl⟩

/-- A list of one protocol is written behind the two bytes that are allocated for it. -/
theorem protocol_list_overflows :
    ¬ OptionsSound benchPlatform (socketsSocket benchPlatform benchPort).1
        [(0, .alpnProtocols [[0x61]])] (socketsSocket benchPlatform benchPort).2 := by
  intro h
  have hinside := h.inside.1 _ rfl ⟨2, 4, 4⟩ (by decide)
  exact absurd hinside (by decide)

end TivaAws.Sockets
