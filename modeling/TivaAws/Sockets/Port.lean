import TivaAws.Foundation.Lifetime
import TivaAws.Tls.Context
import Mathlib.Logic.Function.Basic

/-!
# The secure sockets port

The functions of `aws_secure_sockets.c`. A handle is an address, `NULL` is zero, and the contexts
that exist are those in memory. What lwIP, the allocator and the TLS layer answer is up to a
`Platform`. The port records every access through a handle as a use of the context at that
address, whether there is one or not: a handle that names no context is what a run must not use,
and a function that gets one goes on as if its call had failed.
-/

namespace TivaAws.Sockets

open Lifetime

/-! ## Codes -/

/-- `SOCKETS_INVALID_SOCKET`. -/
def socketsInvalidSocket : Nat := 0xFFFFFFFF

/-- `SOCKETS_ERROR_NONE`. -/
def socketsErrorNone : Int := 0

/-- `SOCKETS_SOCKET_ERROR`. -/
def socketsSocketError : Int := -1

/-- `SOCKETS_EWOULDBLOCK`. -/
def socketsEWouldBlock : Int := -11

/-- `pdFREERTOS_ERRNO_ENOMEM`. -/
def errnoENOMEM : Int := 12

/-- `SO_SNDTIMEO` and `SO_RCVTIMEO` of lwIP. -/
def soSndtimeo : Int := 0x1005
def soRcvtimeo : Int := 0x1006

/-! ## Contexts -/

/-- `SSOCKETContext_t`, with the pointers that the array at `ppcAlpnProtocols` holds. Only whether
`pvTLSContext` is `NULL` matters. -/
structure SSOCKETContext where
  xSocket : Nat
  pcDestination : Nat
  pvTLSContext : Bool
  xRequireTLS : Bool
  xSendFlags : Nat
  xRecvFlags : Nat
  pcServerCertificate : Nat
  ulServerCertificateLength : Nat
  ppcAlpnProtocols : Nat
  alpnProtocols : Nat → Nat
  ulAlpnProtocolsCount : Nat

/-- What a handle or a descriptor stands for. -/
inductive Resource where
  | context (address : Nat)
  | descriptor (xSocket : Nat)
  deriving DecidableEq, Repr

/-- The address of a context. -/
def Resource.address : Resource → Option Nat
  | .context address => some address
  | .descriptor _ => none

/-- What the port does. -/
inductive PortOutput where
  /-- A context or a descriptor is opened, used or closed. -/
  | action (done : Action Resource)
  /-- A block for a socket option is allocated or freed. -/
  | memory (done : Action Nat)
  /-- `SOCKETS_Socket` has made no socket and returns this. -/
  | noSocket (reported : Nat)
  /-- A descriptor has been connected, with TLS if that is required. -/
  | connected (xSocket : Nat)
  deriving DecidableEq

/-- The action on a context or a descriptor that an output is. -/
def PortOutput.handleAction : PortOutput → Option (Action Resource)
  | .action done => some done
  | _ => none

/-- The action on a block that an output is. -/
def PortOutput.blockAction : PortOutput → Option (Action Nat)
  | .memory done => some done
  | _ => none

/-! ## The platform -/

/-- What `pvPortMalloc` returns: memory nobody else has, with whatever its last user left in it. -/
structure Block (used : List Nat) where
  address : Nat
  words : Nat → Nat
  fresh : address ∉ used
  ne_null : address ≠ 0
  ne_invalid : address ≠ socketsInvalidSocket

/-- What `lwip_socket` returns: a descriptor that is not open. -/
structure Descriptor (live : List Resource) where
  xSocket : Nat
  fresh : .descriptor xSocket ∉ live

/-- What a call that receives gives: at most as many bytes as it was asked for, or the negative
code `-(code + 1)`. -/
inductive Received (limit : Nat) where
  | bytes (data : List UInt8) (length_le : data.length ≤ limit)
  | error (code : Nat)

/-- The number of bytes or the negative code. -/
def Received.status {limit : Nat} : Received limit → Int
  | .bytes data _ => data.length
  | .error code => Int.negSucc code

/-- The calls out of the port. The TLS calls are those of `aws_tls.c`: `TLS_Init` fails only for
want of memory. -/
structure Platform (E : Type) where
  gethostbyname : List UInt8 → E → Option UInt32 × E
  socket : (live : List Resource) → E → Option (Descriptor live) × E
  setsockopt : (xSocket : Nat) → (level optname : Int) → E → Int × E
  connect : (xSocket : Nat) → (ulAddress : UInt32) → (usPort : UInt16) → E → Int × E
  recv : (xSocket limit flags : Nat) → E → Received limit × E
  send : (xSocket : Nat) → List UInt8 → (flags : Nat) → E → Int × E
  shutdown : (xSocket how : Nat) → E → Int × E
  close : (xSocket : Nat) → E → E
  malloc : (used : List Nat) → (size : Nat) → E → Option (Block used) × E
  tlsInit : E → Bool × E
  tlsConnect : E → Int × E
  tlsRecv : (limit : Nat) → E → Received limit × E
  tlsSend : List UInt8 → E → Int × E
  tlsCleanup : E → E

/-- The contexts in memory, what the port has done, and the world around it. -/
structure Port (E : Type) where
  contexts : Nat → Option SSOCKETContext
  outputs : List PortOutput
  environment : E

variable {E : Type}

namespace Port

/-- The contexts that exist and the descriptors that are open. -/
def live (port : Port E) :
    List Resource := remaining [] (port.outputs.filterMap PortOutput.handleAction)

/-- The blocks of socket options that are allocated. -/
def blocks (port : Port E) :
    List Nat := remaining [] (port.outputs.filterMap PortOutput.blockAction)

/-- The addresses of all memory the port has. -/
def used (port : Port E) : List Nat := port.live.filterMap Resource.address ++ port.blocks

/-- Append an output. -/
def emit (output : PortOutput) (port : Port E) : Port E :=
  { port with outputs := port.outputs ++ [output] }

/-- An access through a handle. One through `NULL` ends the program, while the model goes on with
the record of it, so that what comes after it says nothing. -/
def dereference (xSocket : Nat) (port : Port E) : Port E :=
  port.emit (.action (.use (.context xSocket)))

/-- Store a context. -/
def setContext (xSocket : Nat) (pxContext : SSOCKETContext) (port : Port E) : Port E :=
  { port with contexts := Function.update port.contexts xSocket (some pxContext) }

/-- A call with no effect on the port. -/
def call {α : Type} (f : E → α × E) (port : Port E) : α × Port E :=
  let answer := f port.environment
  (answer.1, { port with environment := answer.2 })

/-- A call on a descriptor. -/
def callOn {α : Type} (xSocket : Nat) (f : E → α × E) (port : Port E) : α × Port E :=
  (port.emit (.action (.use (.descriptor xSocket)))).call f

end Port

variable (platform : Platform E)

/-- `pvPortMalloc` for a socket option: the address, zero for `NULL`, and what the memory holds. -/
def mallocBlock (size : Nat) (port : Port E) : Nat × (Nat → Nat) × Port E :=
  let answer := port.call (platform.malloc port.used size)
  match answer.1 with
  | none => (0, fun _ => 0, answer.2)
  | some block => (block.address, block.words, answer.2.emit (.memory (.acquire block.address)))

/-- `vPortFree` of a block unless the pointer is `NULL`. -/
def freeBlock (address : Nat) (port : Port E) : Port E :=
  if address ≠ 0 then port.emit (.memory (.release address)) else port

/-! ## Closing -/

/-- `SOCKETS_Close`. -/
def socketsClose (xSocket : Nat) (port : Port E) : Port E :=
  if xSocket ≠ 0 then
    let port := port.dereference xSocket
    match port.contexts xSocket with
    | none => port
    | some pxContext =>
        let port := freeBlock pxContext.pcDestination port
        let port := freeBlock pxContext.pcServerCertificate port
        let port :=
          if pxContext.ppcAlpnProtocols ≠ 0 then
            let port := (List.range pxContext.ulAlpnProtocolsCount).foldl
              (fun port ulProtocol => freeBlock (pxContext.alpnProtocols ulProtocol) port) port
            freeBlock pxContext.ppcAlpnProtocols port
          else port
        let port :=
          if pxContext.xRequireTLS ∧ pxContext.pvTLSContext then
            { port with environment := platform.tlsCleanup port.environment }
          else port
        let port := port.emit (.action (.release (.descriptor pxContext.xSocket)))
        let port :=
          { port with environment := platform.close pxContext.xSocket port.environment }
        { port with contexts := Function.update port.contexts xSocket none }.emit
          (.action (.release (.context xSocket)))
  else port

/-! ## Opening and connecting -/

/-- The context after `memset`, around a descriptor. -/
def SSOCKETContext.cleared (xSocket : Nat) : SSOCKETContext where
  xSocket := xSocket
  pcDestination := 0
  pvTLSContext := false
  xRequireTLS := false
  xSendFlags := 0
  xRecvFlags := 0
  pcServerCertificate := 0
  ulServerCertificateLength := 0
  ppcAlpnProtocols := 0
  alpnProtocols := fun _ => 0
  ulAlpnProtocolsCount := 0

/-- `sizeof( SSOCKETContext_t )`. -/
def sizeofSSOCKETContext : Nat := 40

/-- `SOCKETS_Socket`. When there is no memory for the context, the descriptor itself is handed to
`SOCKETS_Close`, and both failures return the `NULL` that `pxContext` still is. -/
def socketsSocket (port : Port E) : Nat × Port E :=
  let answer := port.call (platform.socket port.live)
  match answer.1 with
  | none => (0, answer.2.emit (.noSocket 0))
  | some descriptor =>
      let port := answer.2.emit (.action (.acquire (.descriptor descriptor.xSocket)))
      let answer := port.call (platform.malloc port.used sizeofSSOCKETContext)
      match answer.1 with
      | none => (0, (socketsClose platform descriptor.xSocket answer.2).emit (.noSocket 0))
      | some block =>
          (block.address,
            (answer.2.setContext block.address (.cleared descriptor.xSocket)).emit
              (.action (.acquire (.context block.address))))

/-- `SOCKETS_GetHostByName`, which reads the answer of lwIP even if it is `NULL`. -/
def socketsGetHostByName (pcHostName : List UInt8) (port : Port E) : UInt32 × Port E :=
  let answer := port.call (platform.gethostbyname pcHostName)
  match answer.1 with
  | none => (0, answer.2.dereference 0)
  | some ulAddress => (ulAddress, answer.2)

/-- `SocketsSockaddr_t`. -/
structure SocketsSockaddr where
  usPort : UInt16
  ulAddress : UInt32

/-- The TLS set-up at the end of `SOCKETS_Connect`; the handshake goes through the callbacks of the
port, which use the context and its descriptor. -/
def negotiateTLS (xSocket : Nat) (pxContext : SSOCKETContext) (port : Port E) : Int × Port E :=
  let initialized := port.call platform.tlsInit
  let port := initialized.2.setContext xSocket { pxContext with pvTLSContext := initialized.1 }
  if initialized.1 then (port.dereference xSocket).callOn pxContext.xSocket platform.tlsConnect
  else (Tls.ckrHostMemory, port)

/-- `SOCKETS_Connect` with an address that is not `NULL`. -/
def socketsConnect (xSocket : Nat) (pxAddress : SocketsSockaddr) (port : Port E) : Int × Port E :=
  if xSocket ≠ socketsInvalidSocket then
    let port := port.dereference xSocket
    match port.contexts xSocket with
    | none => (socketsSocketError, port)
    | some pxContext =>
        let connected := port.callOn pxContext.xSocket
          (platform.connect pxContext.xSocket pxAddress.ulAddress pxAddress.usPort)
        let connected :=
          if connected.1 = socketsErrorNone ∧ pxContext.xRequireTLS then
            negotiateTLS platform xSocket pxContext connected.2
          else connected
        (connected.1,
          if connected.1 = socketsErrorNone then
            connected.2.emit (.connected pxContext.xSocket)
          else connected.2)
  else (socketsSocketError, port)

/-! ## Receiving and sending -/

/-- `TLS_Recv` on a context that may be `NULL`. -/
def tlsRecv (limit : Nat) (pxContext : SSOCKETContext) (port : Port E) :
    Received limit × Port E :=
  if pxContext.pvTLSContext then port.callOn pxContext.xSocket (platform.tlsRecv limit)
  else (.error (-Tls.errSslInternalError - 1).toNat, port)

/-- `TLS_Send` on a context that may be `NULL`. -/
def tlsSend (data : List UInt8) (pxContext : SSOCKETContext) (port : Port E) : Int × Port E :=
  if pxContext.pvTLSContext then port.callOn pxContext.xSocket (platform.tlsSend data)
  else (Tls.errSslInternalError, port)

/-- `SOCKETS_Recv` into a buffer that is not `NULL`. The flags are stored before the handle is
compared with anything. -/
def socketsRecv (xSocket xBufferLength ulFlags : Nat) (port : Port E) :
    Received xBufferLength × Port E :=
  let port := port.dereference xSocket
  match port.contexts xSocket with
  | none => (.error 0, port)
  | some pxContext =>
      let port := port.setContext xSocket { pxContext with xRecvFlags := ulFlags }
      if xSocket ≠ socketsInvalidSocket then
        if pxContext.xRequireTLS then tlsRecv platform xBufferLength pxContext port
        else port.callOn pxContext.xSocket (platform.recv pxContext.xSocket xBufferLength ulFlags)
      else (.error 0, port)

/-- `SOCKETS_Send` from a buffer that is not `NULL`. -/
def socketsSend (xSocket : Nat) (data : List UInt8) (ulFlags : Nat) (port : Port E) :
    Int × Port E :=
  if xSocket ≠ socketsInvalidSocket then
    let port := port.dereference xSocket
    match port.contexts xSocket with
    | none => (socketsSocketError, port)
    | some pxContext =>
        let port := port.setContext xSocket { pxContext with xSendFlags := ulFlags }
        if pxContext.xRequireTLS then tlsSend platform data pxContext port
        else port.callOn pxContext.xSocket (platform.send pxContext.xSocket data ulFlags)
  else (socketsSocketError, port)

/-- `SOCKETS_Shutdown`. -/
def socketsShutdown (xSocket ulHow : Nat) (port : Port E) : Int × Port E :=
  let port := port.dereference xSocket
  match port.contexts xSocket with
  | none => (socketsSocketError, port)
  | some pxContext => port.callOn pxContext.xSocket (platform.shutdown pxContext.xSocket ulHow)

/-! ## Options -/

/-- `lOptionName` with the value that goes with it. -/
inductive SocketOption where
  | serverNameIndication (pvOptionValue : List UInt8)
  | trustedServerCertificate (pvOptionValue : List UInt8)
  | requireTLS
  | alpnProtocols (ppcAlpnIn : List (List UInt8))
  | nonblock
  | rcvtimeo
  | sndtimeo
  | other (lOptionName : Int)

/-- `SOCKETS_SO_WAKEUP_CALLBACK`, which the port does not know. -/
def socketsSoWakeupCallback : Int := 17

/-- The loop that copies the protocol strings: `lStatus` and the context with the array filled. -/
def copyProtocols :
    List (List UInt8) → Nat → SSOCKETContext → Port E → Int × SSOCKETContext × Port E
  | [], _, pxContext, port => (socketsErrorNone, pxContext, port)
  | protocol :: rest, ulProtocol, pxContext, port =>
      let copy := mallocBlock platform (1 + protocol.length) port
      let pxContext :=
        { pxContext with
          alpnProtocols := Function.update pxContext.alpnProtocols ulProtocol copy.1 }
      if copy.1 = 0 then (errnoENOMEM, pxContext, copy.2.2)
      else copyProtocols rest (ulProtocol + 1) pxContext copy.2.2

/-- The option `SOCKETS_SO_ALPN_PROTOCOLS`. -/
def setAlpnProtocols (ppcAlpnIn : List (List UInt8)) (pxContext : SSOCKETContext)
    (port : Port E) : Int × SSOCKETContext × Port E :=
  let ulAlpnProtocolsCount := 1 + ppcAlpnIn.length
  let array := mallocBlock platform ulAlpnProtocolsCount port
  let pxContext :=
    { pxContext with ulAlpnProtocolsCount, ppcAlpnProtocols := array.1, alpnProtocols := array.2.1 }
  if array.1 = 0 then (errnoENOMEM, pxContext, array.2.2)
  else
    let pxContext :=
      { pxContext with
        alpnProtocols :=
          Function.update pxContext.alpnProtocols (ulAlpnProtocolsCount - 1) 0 }
    copyProtocols platform ppcAlpnIn 0 pxContext array.2.2

/-- The cases of `SOCKETS_SetSockOpt`: `lStatus` and what becomes of the context. -/
def setOption (lLevel : Int) (option : SocketOption) (pxContext : SSOCKETContext)
    (port : Port E) : Int × SSOCKETContext × Port E :=
  let setsockopt (optname : Int) (port : Port E) : Int × Port E :=
    port.callOn pxContext.xSocket (platform.setsockopt pxContext.xSocket lLevel optname)
  match option with
  | .serverNameIndication pvOptionValue =>
      let copy := mallocBlock platform (1 + pvOptionValue.length) port
      (if copy.1 = 0 then errnoENOMEM else socketsErrorNone,
        { pxContext with pcDestination := copy.1 }, copy.2.2)
  | .trustedServerCertificate pvOptionValue =>
      let copy := mallocBlock platform pvOptionValue.length port
      if copy.1 = 0 then (errnoENOMEM, { pxContext with pcServerCertificate := 0 }, copy.2.2)
      else
        (socketsErrorNone,
          { pxContext with
            pcServerCertificate := copy.1
            ulServerCertificateLength := pvOptionValue.length }, copy.2.2)
  | .requireTLS => (socketsErrorNone, { pxContext with xRequireTLS := true }, port)
  | .alpnProtocols ppcAlpnIn => setAlpnProtocols platform ppcAlpnIn pxContext port
  | .nonblock =>
      let receive := setsockopt soRcvtimeo port
      let status :=
        if receive.1 = socketsErrorNone then setsockopt soSndtimeo receive.2 else receive
      (status.1, pxContext, status.2)
  | .rcvtimeo =>
      let status := setsockopt soRcvtimeo port
      (status.1, pxContext, status.2)
  | .sndtimeo =>
      let status := setsockopt soSndtimeo port
      (status.1, pxContext, status.2)
  | .other lOptionName =>
      let status := setsockopt lOptionName port
      (status.1, pxContext, status.2)

/-- `SOCKETS_SetSockOpt`. -/
def socketsSetSockOpt (xSocket : Nat) (lLevel : Int) (option : SocketOption) (port : Port E) :
    Int × Port E :=
  let port := port.dereference xSocket
  match port.contexts xSocket with
  | none => (socketsSocketError, port)
  | some pxContext =>
      let set := setOption platform lLevel option pxContext port
      (set.1, set.2.2.setContext xSocket set.2.1)

end TivaAws.Sockets
