import TivaAws.Agent.Types

/-!
# Setting up and closing a connection

`prvSetupConnection` and `prvGracefulSocketClose` of `aws_mqtt_agent.c` over the sockets port. A
loop that ends when its time is up runs for the number of rounds that the environment gives it.
-/

namespace TivaAws.Agent

open Mqtt Sockets

variable {E : Type} (user : Environment E)

/-! ## Closing -/

/-- The loop of `prvGracefulSocketClose`: read until the socket gives an error or time is up. -/
def drainSocket (xSocket : Nat) : Nat → Port E → Port E
  | 0, port => (socketsRecv user.toPlatform xSocket rxBufferSize 0 port).2
  | rounds + 1, port =>
      let received := socketsRecv user.toPlatform xSocket rxBufferSize 0 port
      if 0 ≤ received.1.status then drainSocket xSocket rounds received.2 else received.2

/-- `prvGracefulSocketClose`. -/
def prvGracefulSocketClose (w : Endpoint E) : Endpoint E :=
  let xSocket := w.connection.xSocket
  let w := (w.onPort (socketsShutdown user.toPlatform xSocket shutRdwr)).2
  let rounds := w.call user.closeRounds
  let w := rounds.2.withPort (drainSocket user xSocket rounds.1 rounds.2.port)
  let w := w.withPort (socketsClose user.toPlatform xSocket w.port)
  w.withSocket socketsInvalidSocket

/-! ## Setting up -/

/-- `SOCKETS_htons` on the little-endian target. -/
def socketsHtons (usIn : UInt16) : UInt16 := (usIn <<< 8) ||| (usIn >>> 8)

/-- The port of the broker. -/
def MQTTAgentConnectParams.brokerPort (params : MQTTAgentConnectParams) : UInt16 :=
  socketsHtons
    (if params.hasFlag useAwsIotAlpn443 then defaultTlsDestinationPort else params.usPort)

/-- Set an option if it is wanted and all is well so far; `xStatus` says whether all is well. -/
def trySetSockOpt (xSocket : Nat) (option : Option SocketOption) (xStatus : Bool)
    (port : Port E) : Bool × Port E :=
  match xStatus, option with
  | true, some option =>
      let set := socketsSetSockOpt user.toPlatform xSocket 0 option port
      (set.1 = socketsErrorNone, set.2)
  | _, _ => (xStatus, port)

/-- The option for the certificate, if one is supplied. -/
def MQTTAgentConnectParams.certificateOption (params : MQTTAgentConnectParams) :
    Option SocketOption :=
  params.pcCertificate.map .trustedServerCertificate

/-- The option for the server name, unless the URL is an address. The terminator is part of the
value. -/
def MQTTAgentConnectParams.serverNameOption (params : MQTTAgentConnectParams) :
    Option SocketOption :=
  if params.hasFlag urlIsIpAddress = false ∧ params.xURLIsIPAddress = false then
    some (.serverNameIndication (params.pcURL ++ [0]))
  else none

/-- The option for ALPN, if it is requested. -/
def MQTTAgentConnectParams.alpnOption (params : MQTTAgentConnectParams) : Option SocketOption :=
  if params.hasFlag useAwsIotAlpn443 then some (.alpnProtocols [awsIotAlpnMqtt]) else none

/-- The options of a secured connection. -/
def secureSocket (params : MQTTAgentConnectParams) (xSocket : Nat) (port : Port E) :
    Bool × Port E :=
  let tls := trySetSockOpt user xSocket (some .requireTLS) true port
  let certificate := trySetSockOpt user xSocket params.certificateOption tls.1 tls.2
  let serverName := trySetSockOpt user xSocket params.serverNameOption certificate.1 certificate.2
  trySetSockOpt user xSocket params.alpnOption serverName.1 serverName.2

/-- What `prvSetupConnection` does with a socket that is not `SOCKETS_INVALID_SOCKET`: set its
options and connect it. The answers to the first and to the last option are ignored. -/
def openSocket (params : MQTTAgentConnectParams) (address : SocketsSockaddr) (secured : Bool)
    (xSocket : Nat) (port : Port E) : Bool × Port E :=
  let port :=
    (socketsSetSockOpt user.toPlatform xSocket 0 (.other socketsSoWakeupCallback) port).2
  let options := if secured then secureSocket user params xSocket port else (true, port)
  if options.1 then
    let connected := socketsConnect user.toPlatform xSocket address options.2
    if connected.1 = socketsErrorNone then
      (true, (socketsSetSockOpt user.toPlatform xSocket 0xfff .nonblock connected.2).2)
    else (false, connected.2)
  else options

/-- Whether `mqttCONNECTION_SECURED` is set. -/
def MQTTBrokerConnection.secured (connection : MQTTBrokerConnection) : Bool :=
  connection.uxFlags &&& connectionSecured = connectionSecured

/-- `prvSetupConnection` up to the socket: the address of the broker, with the socket stored in the
connection. -/
def requestSocket (params : MQTTAgentConnectParams) (w : Endpoint E) : UInt32 × Endpoint E :=
  let host := w.onPort (socketsGetHostByName user.toPlatform params.pcURL)
  let made := host.2.onPort (socketsSocket user.toPlatform)
  (host.1, made.2.withSocket made.1)

/-- `prvSetupConnection` from the test of the socket on. Nothing is done without a socket, and
`xStatus` is still `pdPASS` then. -/
def setupSocket (params : MQTTAgentConnectParams) (ulAddress : UInt32) (w : Endpoint E) :
    Bool × Endpoint E :=
  if w.connection.xSocket ≠ socketsInvalidSocket then
    let opened := w.onPort (openSocket user params ⟨params.brokerPort, ulAddress⟩
      w.connection.secured w.connection.xSocket)
    if opened.1 then opened else (false, prvGracefulSocketClose user opened.2)
  else (true, w)

/-- `prvSetupConnection`; the result is whether it returns `pdPASS`. The program never gets out of
an assertion that fails, while the model goes on with the record of it. -/
def prvSetupConnection (params : MQTTAgentConnectParams) (w : Endpoint E) : Bool × Endpoint E :=
  if w.connection.xSocket ≠ socketsInvalidSocket then (false, w.emit .assertFailed)
  else if params.pcURL.length ≤ maxDnsNameLength then
    let requested := requestSocket user params w
    setupSocket user params requested.1 requested.2
  else (false, w)

end TivaAws.Agent
