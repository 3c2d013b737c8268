import TivaAws.Foundation.Lifetime

/-!
# TLS contexts

The functions of `aws_tls.c` over the results of the library calls they make. What the program
does with the memory, the mbedTLS objects and the PKCS#11 session is recorded as a list of actions
on resources. Results are return codes as the code sees them, zero for success. A loop that waits
for a result the calls never give does not return.
-/

namespace TivaAws.Tls

open Lifetime

/-! ## Codes -/

/-- `MBEDTLS_ERR_SSL_WANT_READ`. -/
def errSslWantRead : Int := -0x6900

/-- `MBEDTLS_ERR_SSL_WANT_WRITE`. -/
def errSslWantWrite : Int := -0x6880

/-- `MBEDTLS_ERR_SSL_INTERNAL_ERROR`. -/
def errSslInternalError : Int := -0x6C00

/-- `CKR_HOST_MEMORY`. -/
def ckrHostMemory : Int := 2

/-! ## Contexts -/

/-- What a TLS context owns: its own memory, the mbedTLS objects in it, the PKCS#11 session, and
the buffer for the exported client certificate. -/
inductive Resource where
  | context
  | mbedSslCtx
  | mbedSslConfig
  | mbedX509CA
  | mbedX509Cli
  | xP11Session
  | pucCertificate
  deriving DecidableEq, Repr

/-- `TLSParams_t` and `TLSContext_t`: which of the optional pointers are not `NULL`, and the flag
that marks a finished handshake. -/
structure TLSContext where
  pcServerCertificate : Bool
  ppcAlpnProtocols : Bool
  pcDestination : Bool
  pxP11FunctionList : Bool
  xMbedInitialized : Bool

/-- The calls that can fail before the handshake. -/
inductive ConnectStep where
  | parseServerCertificate
  | parseVerisignRootCertificate
  | parseAts1RootCertificate
  | configDefaults
  | getFunctionList
  | initializeLibrary
  | getSlotList
  | openSession
  | findPrivateKeyInit
  | findPrivateKey
  | findPrivateKeyFinal
  | getKeyContext
  | getKeySize
  | findCertificateInit
  | findCertificate
  | findCertificateFinal
  | getCertificateSize
  | allocateCertificate
  | getCertificate
  | parseClientCertificate
  | parseJitrCertificate
  | confOwnCert
  | confAlpnProtocols
  | sslSetup
  | setHostname
  deriving DecidableEq, Repr

/-- The results of the calls: of `pvPortMalloc` in `TLS_Init`, of each step before the handshake and
of the handshake calls in order. `jitrCertificate` says whether
`clientcredentialJITR_DEVICE_CERTIFICATE_AUTHORITY_PEM` is not `NULL`. -/
structure Outcomes where
  allocated : Bool
  step : ConnectStep → Int
  jitrCertificate : Bool
  handshake : List Int

/-! ## Releasing a context -/

/-- What the TLS layer touches while it handles a record: the session is behind the random number
generator. -/
def recordUses : List (Action Resource) :=
  [.use .mbedSslCtx, .use .mbedSslConfig, .use .xP11Session]

/-- `prvFreeContext`. -/
def prvFreeContext (pCtx : TLSContext) : TLSContext × List (Action Resource) :=
  ({ pCtx with xMbedInitialized := false },
    recordUses ++ [.release .mbedSslCtx, .release .mbedSslConfig] ++
      if pCtx.pxP11FunctionList then [.release .xP11Session] else [])

/-! ## Connecting -/

/-- `xResult`, whether the function list has been obtained, and the actions so far. -/
structure Progress where
  xResult : Int
  pxP11FunctionList : Bool
  actions : List (Action Resource)

namespace Progress

/-- Something that is done whatever happened before. -/
def always (actions : List (Action Resource)) (p : Progress) : Progress :=
  { p with actions := p.actions ++ actions }

/-- `if( 0 == xResult ) xResult = …`: a call that is made if all before it succeeded. -/
def step (result : Int) (actions : List (Action Resource)) (p : Progress) : Progress :=
  if p.xResult = 0 then { p with xResult := result, actions := p.actions ++ actions } else p

end Progress

/-- `prvInitializeClientCredential`. -/
def prvInitializeClientCredential (outcomes : Outcomes) (p : Progress) : Progress :=
  let r := outcomes.step
  let p := p.step 0 [.acquire .mbedX509Cli]
  let p := p.step (r .getFunctionList) []
  let p := { p with pxP11FunctionList := p.xResult = 0 }
  let p := p.step (r .initializeLibrary) []
  let p := p.step (r .getSlotList) []
  let p := p.step (r .openSession) (if r .openSession = 0 then [.acquire .xP11Session] else [])
  let p := p.step (r .findPrivateKeyInit) [.use .xP11Session]
  let p := p.step (r .findPrivateKey) [.use .xP11Session]
  let p := p.step (r .findPrivateKeyFinal) [.use .xP11Session]
  let p := p.step (r .getKeyContext) [.use .xP11Session]
  let p := p.step (r .getKeySize) [.use .xP11Session]
  let p := p.step (r .findCertificateInit) [.use .xP11Session]
  let p := p.step (r .findCertificate) [.use .xP11Session]
  let p := p.step (r .findCertificateFinal) [.use .xP11Session]
  let p := p.step (r .getCertificateSize) [.use .xP11Session]
  let p := p.step (if r .allocateCertificate = 0 then 0 else ckrHostMemory)
    (if r .allocateCertificate = 0 then [.acquire .pucCertificate] else [])
  let allocated := p.xResult = 0
  let p := p.step (r .getCertificate) [.use .xP11Session, .use .pucCertificate]
  let p := p.step (r .parseClientCertificate) [.use .mbedX509Cli, .use .pucCertificate]
  let p := if outcomes.jitrCertificate then
    p.step (r .parseJitrCertificate) [.use .mbedX509Cli] else p
  let p := p.step (r .confOwnCert) [.use .mbedSslConfig, .use .mbedX509Cli]
  p.always (if allocated then [.release .pucCertificate] else [])

/-- `TLS_Connect` up to the handshake. -/
def prepareConnection (outcomes : Outcomes) (pCtx : TLSContext) : Progress :=
  let r := outcomes.step
  let p : Progress := ⟨0, pCtx.pxP11FunctionList, [.use .context]⟩
  let p := p.always [.acquire .mbedSslCtx, .acquire .mbedSslConfig, .acquire .mbedX509CA]
  let p :=
    if pCtx.pcServerCertificate then p.step (r .parseServerCertificate) [.use .mbedX509CA]
    else
      (p.step (r .parseVerisignRootCertificate) [.use .mbedX509CA]).step
        (r .parseAts1RootCertificate) [.use .mbedX509CA]
  let p := p.step (r .configDefaults) [.use .mbedSslConfig]
  let p := p.step 0 [.use .mbedSslConfig, .use .mbedX509CA]
  let p := prvInitializeClientCredential outcomes p
  let p := if pCtx.ppcAlpnProtocols then
    p.step (r .confAlpnProtocols) [.use .mbedSslConfig] else p
  let p := p.step (r .sslSetup) [.use .mbedSslCtx, .use .mbedSslConfig]
  let p := if pCtx.pcDestination then p.step (r .setHostname) [.use .mbedSslCtx] else p
  p.step 0 [.use .mbedSslCtx]

/-- What a call of `mbedtls_ssl_handshake` touches. -/
def handshakeUses : List (Action Resource) :=
  recordUses ++ [.use .mbedX509CA, .use .mbedX509Cli]

/-- The handshake loop: its result, and what it does up to the end of its last call. -/
def handshakeLoop : List Int → Option (Int × List (Action Resource))
  | [] => none
  | xResult :: rest =>
      if xResult = 0 then some (0, handshakeUses)
      else if xResult ≠ errSslWantRead ∧ xResult ≠ errSslWantWrite then
        some (xResult, handshakeUses)
      else (handshakeLoop rest).map fun last => (last.1, handshakeUses ++ last.2)

/-- The end of `TLS_Connect`, where the certificates are freed. -/
def freeCertificates : List (Action Resource) := [.release .mbedX509CA, .release .mbedX509Cli]

/-- `TLS_Connect`. -/
def tlsConnect (outcomes : Outcomes) (pCtx : TLSContext) :
    Option (Int × TLSContext × List (Action Resource)) :=
  let p := prepareConnection outcomes pCtx
  let pCtx := { pCtx with pxP11FunctionList := p.pxP11FunctionList }
  if p.xResult = 0 then
    (handshakeLoop outcomes.handshake).map fun last =>
      if last.1 = 0 then
        (0, { pCtx with xMbedInitialized := true }, p.actions ++ last.2 ++ freeCertificates)
      else
        let freed := prvFreeContext pCtx
        (last.1, freed.1, p.actions ++ last.2 ++ freed.2 ++ freeCertificates)
  else some (p.xResult, pCtx, p.actions ++ freeCertificates)

/-! ## Receiving and sending -/

/-- How a call of `TLS_Recv` or `TLS_Send` ended. -/
structure Transfer where
  xResult : Int
  pCtx : TLSContext
  actions : List (Action Resource)

/-- The loop of `TLS_Recv` and `TLS_Send` with `done` bytes behind it; `want` is the code for which
the call is repeated. -/
def transferLoop (want : Int) (length : Nat) (pCtx : TLSContext) :
    List Int → Nat → Int → Option Transfer
  | results, done, xResult =>
      if done < length then
        match results with
        | [] => none
        | result :: rest =>
            if 0 < result then
              (transferLoop want length pCtx rest (done + result.toNat) result).map fun last =>
                { last with actions := recordUses ++ last.actions }
            else if result = 0 then some ⟨done, pCtx, recordUses⟩
            else if result ≠ want then
              let freed := prvFreeContext pCtx
              some ⟨result, freed.1, recordUses ++ freed.2⟩
            else
              (transferLoop want length pCtx rest done result).map fun last =>
                { last with actions := recordUses ++ last.actions }
      else some ⟨if 0 ≤ xResult then done else xResult, pCtx, []⟩

/-- What `TLS_Recv` and `TLS_Send` share. -/
def transfer (want : Int) (length : Nat) (results : List Int) (pCtx : TLSContext) :
    Option Transfer :=
  if pCtx.xMbedInitialized then
    (transferLoop want length pCtx results 0 0).map fun last =>
      { last with actions := .use .context :: last.actions }
  else some ⟨errSslInternalError, pCtx, [.use .context]⟩

/-- `TLS_Recv` on a context that exists, with the results of `mbedtls_ssl_read`. -/
def tlsRecv : Nat → List Int → TLSContext → Option Transfer := transfer errSslWantRead

/-- `TLS_Send` on a context that exists, with the results of `mbedtls_ssl_write`. -/
def tlsSend : Nat → List Int → TLSContext → Option Transfer := transfer errSslWantWrite

/-- `TLS_Cleanup` on a context that exists. -/
def tlsCleanup (pCtx : TLSContext) : List (Action Resource) :=
  [.use .context] ++ (if pCtx.xMbedInitialized then (prvFreeContext pCtx).2 else []) ++
    [.release .context]

/-! ## The life of a context -/

/-- `TLSParams_t`. -/
structure TLSParams where
  pcServerCertificate : Bool
  ppcAlpnProtocols : Bool
  pcDestination : Bool

/-- `TLS_Init`: `none` if there is no memory. -/
def tlsInit (outcomes : Outcomes) (params : TLSParams) : Option TLSContext :=
  if outcomes.allocated then
    some
      { pcServerCertificate := params.pcServerCertificate
        ppcAlpnProtocols := params.ppcAlpnProtocols
        pcDestination := params.pcDestination
        pxP11FunctionList := false
        xMbedInitialized := false }
  else none

/-- A call of `TLS_Recv` or `TLS_Send` with the results of the mbedTLS calls it makes. -/
inductive TransferCall where
  | recv (xReadLength : Nat) (results : List Int)
  | send (xMsgLength : Nat) (results : List Int)

/-- Make a call. -/
def TransferCall.make (pCtx : TLSContext) : TransferCall → Option Transfer
  | .recv xReadLength results => tlsRecv xReadLength results pCtx
  | .send xMsgLength results => tlsSend xMsgLength results pCtx

/-- Make calls one after the other. -/
def transfers : List TransferCall → TLSContext → Option (TLSContext × List (Action Resource))
  | [], pCtx => some (pCtx, [])
  | call :: rest, pCtx => do
      let first ← call.make pCtx
      let later ← transfers rest first.pCtx
      some (later.1, first.actions ++ later.2)

/-- Everything a context does from `TLS_Init` to `TLS_Cleanup`. Without a context nothing is
done: the caller does not connect, and the other functions answer an error for `NULL`. -/
def life (outcomes : Outcomes) (params : TLSParams) (calls : List TransferCall) :
    Option (List (Action Resource)) :=
  match tlsInit outcomes params with
  | none => some []
  | some pCtx => do
      let connected ← tlsConnect outcomes pCtx
      let later ← transfers calls connected.2.1
      some ([.acquire .context] ++ connected.2.2 ++ later.2 ++ tlsCleanup later.1)

end TivaAws.Tls
