import SoftwareOnSilicon.ByteWiseTransfer

/-!
# `Serial`, its crossovers, and the two endpoints

One call of `Serial::event_loop` is one cycle of an endpoint: it takes the
token of the link, processes the byte that came with it, decides what to send
next, and hands the token on. `eventLoop` is that cycle, for the endpoint of
a role: the virtual functions `FPGA` and `MCU` supply differ in four places
only, which are the ones that mention the role.
-/

namespace SOS

open Interleaving Code

/-! ## The crossover -/

namespace Endpoint

/-- `read_bits`. -/
def readBits (temp : Byte) (s : Endpoint) : Endpoint :=
  { s with
    peerUpdated := temp.getLsbD 7
    ownAcknowledge := temp.getLsbD 6
    peerAcknowledge := false }

/-- `receive_signals`: the received request and acknowledge; the latter takes
the own request back. -/
def receiveSignals (s : Endpoint) : (Bool × Bool) × Endpoint :=
  ((s.peerUpdated, s.ownAcknowledge),
    { s with ownUpdated := if s.ownAcknowledge then false else s.ownUpdated })

/-- `send_acknowledge`. -/
def sendAcknowledge (s : Endpoint) : Endpoint :=
  { s with peerAcknowledge := if s.peerUpdated then true else s.peerAcknowledge }

/-- `send_request`. -/
def sendRequest (s : Endpoint) : Endpoint := { s with ownUpdated := true }

/-- The common part of `send_poweronRequest`, `send_comshutdownRequest`,
`send_idleRequest` and `send_sighupRequest`: request a state. -/
def sendState (st : State) (s : Endpoint) : Endpoint :=
  { s.sendRequest.writeByte (s.sendRequest.writeBits st.code) with
    history.payload := false }

/-- `send_poweronRequest`. -/
def sendPoweronRequest (s : Endpoint) : Endpoint :=
  { s.sendState .poweron with firstRun := false }

/-- `send_comshutdownRequest`. -/
def sendComshutdownRequest (s : Endpoint) : Endpoint :=
  { s.sendState .shutdown with vars.sentComShutdown := true }

/-- `send_idleRequest`. -/
def sendIdleRequest (s : Endpoint) : Endpoint :=
  { s.sendState .idle with
    vars.sentIdle := if s.vars.sentSighup then true else s.vars.sentIdle }

/-- `send_sighupRequest`. -/
def sendSighupRequest (s : Endpoint) : Endpoint :=
  { s.sendState .sighup with vars.sentSighup := true }

end Endpoint

/-- `send_transferRequest`. -/
def sendTransferRequest (item : ℕ) : Comm Unit := do
  if item < numIds then
    change fun s =>
      { s.sendRequest.writeByte (s.sendRequest.writeBits 0 ^^^ transferCode item) with
        history.payload := false }
  else
    abort .invalidDMAObjectId

/-! ## Pending work -/

/-- The loop of `transfers_pending`. -/
def transfersPending : List ℕ → Comm Bool
  | [] => return false
  | j :: js => do
    if (← checkSync .transfersPending j) && !(← look Endpoint.transfer) j then
      return true
    transfersPending js

/-- `writes_pending`. -/
def Endpoint.writesPending (D : DescriptorHelper) (s : Endpoint) : Bool :=
  D.ids.any s.transfer

/-- `reads_pending`. -/
def Endpoint.readsPending (D : DescriptorHelper) (s : Endpoint) : Bool :=
  D.ids.any s.readLock

/-- `stop_notifier`, in the thread that calls it. -/
def stopNotifier {S : Type} : Code S ErrorCode Op.Answer Unit := do
  emitInterrupted (List.range numIds)
  access .stopNotifier (.storeNotified true)

/-! ## The virtual functions of `FPGA` and `MCU` -/

/-- `handshake_query`: the FPGA takes no token once it has sent sighup. -/
def Endpoint.handshakeQuery (r : Role) (s : Endpoint) : Bool :=
  match r with
  | .fpga => !s.vars.sentSighup
  | .mcu => true

/-- `com_shutdown_action`: the MCU follows the shutdown. -/
def comShutdownAction (r : Role) : Comm Unit :=
  match r with
  | .fpga => pure ()
  | .mcu => stopNotifier

/-- What the `incoming_shutdown_query` of both ends asks. -/
def shutdownQuery (D : DescriptorHelper) : Comm Bool := do
  if ← transfersPending D.ids then return false
  if (← look Endpoint.vars).acknowledgeRequested then return false
  if (← look Endpoint.vars).receivedAcknowledge then return false
  access .incomingShutdownQuery .loadNotified

/-- `incoming_shutdown_query`: the MCU waits for the FPGA's shutdown. -/
def incomingShutdownQuery (D : DescriptorHelper) (r : Role) : Comm Bool :=
  match r with
  | .fpga => shutdownQuery D
  | .mcu => do
    if (← look Endpoint.vars).receivedComShutdown then shutdownQuery D
    else return false

/-- `outgoing_sighup_query`: the FPGA hangs up first. -/
def Endpoint.outgoingSighupQuery (D : DescriptorHelper) (r : Role) (s : Endpoint) :
    Bool :=
  match r with
  | .fpga => s.vars.sentComShutdown && s.vars.receivedComShutdown
      && !s.readsPending D && !s.writesPending D
  | .mcu => s.vars.receivedSighup && !s.readsPending D && !s.writesPending D

/-! ## The cycle -/

/-- `clear_read_receive`, the `com_hotplug_action` of both ends. What follows
the error in the source is never reached. -/
def clearReadReceive : Comm Unit := do
  if (← look Endpoint.receiveLock) || (← look Endpoint.readCount) ≠ 0 then
    abort .hotplugAfterUnexpectedShutdown

/-- `read_hook`: process a requested state. -/
def readHook (r : Role) (data : Byte) : Comm Unit := do
  let code := stateCode data
  if code = State.poweron.code then
    if (← look Endpoint.vars).acknowledgeRequested
        || (← look Endpoint.vars).receivedAcknowledge then
      abort .previousTransferRequestsWereNotCleared
    access .readHook (.storeNotified false)
    change fun s => { s with vars := {} }
    clearReadReceive
  else if code = State.idle.code then
    if (← look Endpoint.vars).receivedSighup then
      change fun s => { s with vars.receivedIdle := true }
  else if code = State.shutdown.code then
    if (← look Endpoint.vars).receivedSighup then
      abort .notIdleAfterSighup
    if !(← look Endpoint.vars).receivedComShutdown then
      comShutdownAction r
      change fun s => { s with vars.receivedComShutdown := true }
    else
      abort .duplicateComShutdown
  else if code = State.sighup.code then
    if !(← look Endpoint.vars).receivedSighup then
      change fun s => { s with vars.receivedSighup := true }
    else
      abort .duplicateSighup
  else
    if (← look Endpoint.vars).receivedSighup then
      abort .notIdleAfterSighup
    change fun s => { s with incomingRequest := receiveTransferRequest code }

/-- `transfer_hook`: approve an incoming request. -/
def transferHook : Comm Unit := do
  if (← look Endpoint.incomingRequest) < numIds then
    if (← look Endpoint.incomingRequest) ≠ (← look Endpoint.waitingConfirmation) then
      if (← look Endpoint.readLock) (← look Endpoint.incomingRequest) then
        abort .duplicateReadlockRequest
      if !(← look Endpoint.transfer) (← look Endpoint.incomingRequest) then
        emitReadlocked (← look Endpoint.incomingRequest)
        change fun s => { s with
          readLock := Function.update s.readLock s.incomingRequest true }.sendAcknowledge
      else
        abort .syncedObjectsAreNotSupposedToHaveaTransfer

/-- `acknowledge_hook`: the awaited transfer is approved. -/
def acknowledgeHook : Comm Unit := do
  if (← look Endpoint.waitingConfirmation) < numIds then
    if (← look Endpoint.readLock) (← look Endpoint.waitingConfirmation) then
      abort .receivedATransferAcknowledgeOnReadlockedObject
    if (← look Endpoint.transfer) (← look Endpoint.waitingConfirmation) then
      abort .receivedADuplicateTransferAcknowledgeOnObjectInTransfer
    if !(← look Endpoint.readLock) (← look Endpoint.waitingConfirmation) then
      change fun s => { s with
        transfer := Function.update s.transfer s.waitingConfirmation true }
      emitTransfer (← look Endpoint.waitingConfirmation)
    else
      abort .readlockPredatesAcknowledge

/-- The loop of `getFirstTransfer`. -/
def getFirstTransfer : List ℕ → Comm Bool
  | [] => return false
  | j :: js => do
    if (← checkSync .getFirstTransfer j) && !(← look Endpoint.transfer) j then
      if (← look Endpoint.readLock) j then
        abort .syncedStatusHasNotBeenOverridenWhenReadlockWasAcquired
      change fun s => { s with
        waitingConfirmation := j
        vars.acknowledgeRequested := true }
      sendTransferRequest j
      return true
    getFirstTransfer js

/-- `getFirstSyncObject`: start to send the first acknowledged object. -/
def getFirstSyncObject (D : DescriptorHelper) : Comm Bool := do
  match D.ids.find? (← look Endpoint.transfer) with
  | none => return false
  | some j =>
    if (← look Endpoint.readLock) j then
      abort .foundATransferObjectWhichIsReadlocked
    if (← look Endpoint.writeOriginPos) ≠ 0 then
      abort .previousObjectWriteHasNotBeenCompleted
    change fun s => { s with sendLock := true, writeOrigin := j }
    return true

/-- One of the `if (!this->send_lock)` statements of `write_hook`. -/
def unlessSending (c : Comm Bool) : Comm Bool := do
  if !(← look Endpoint.sendLock) then c else return false

/-- `write_hook`: whether a control symbol has been sent. -/
def writeHook (D : DescriptorHelper) (r : Role) : Comm Bool := do
  if ← look Endpoint.firstRun then
    change Endpoint.sendPoweronRequest
    return true
  if ← unlessSending (do
      if !(← look Endpoint.vars).sentComShutdown then getFirstTransfer D.ids
      else return false) then
    return true
  if ← unlessSending (do
      if (← incomingShutdownQuery D r) && !(← look Endpoint.vars).sentComShutdown then
        change Endpoint.sendComshutdownRequest
        return true
      return false) then
    return true
  if ← unlessSending (getFirstSyncObject D) then
    return false
  unlessSending (do
    if (← look (Endpoint.outgoingSighupQuery D r)) && !(← look Endpoint.vars).sentSighup then
      change Endpoint.sendSighupRequest
      return true
    return false)

/-- The signal bits of an incoming byte, processed before anything else. -/
def Endpoint.receiveBits (data : Byte) (s : Endpoint) : Endpoint :=
  let ((request, acknowledge), s') := (s.readBits data).receiveSignals
  { s' with
    vars.receivedRequest := request
    vars.receivedAcknowledge := acknowledge
    vars.receivedIdle := false
    incomingRequest := numIds }

/-- What a cycle does with the acknowledge bit. -/
def processAcknowledge : Comm Unit := do
  if (← look Endpoint.vars).receivedAcknowledge then
    if !(← look Endpoint.vars).acknowledgeRequested then
      abort .acknowledgeReceivedWithoutAnyRequest
    else
      acknowledgeHook
      change fun s => { s with vars.acknowledgeRequested := false }
  else
    if (← look Endpoint.vars).acknowledgeRequested then
      abort .previousTransferHasNotBeenAcknowledged

/-- The `IN` half of a cycle, after the first. -/
def receiveByte (D : DescriptorHelper) (r : Role) : Comm Unit := do
  let data ← look Endpoint.comIn
  change (Endpoint.receiveBits data)
  if (← look Endpoint.vars).receivedRequest then readHook r data
  else readObject D data
  transferHook
  processAcknowledge

/-- The `OUT` half of a cycle. -/
def sendByte (D : DescriptorHelper) (r : Role) : Comm Unit := do
  change fun s => { s with waitingConfirmation := numIds }
  if !(← writeHook D r) then
    if !(← writeObject D) then
      change Endpoint.sendIdleRequest

/-- A cycle, between the two handshakes. -/
def cycle (D : DescriptorHelper) (r : Role) : Comm Unit := do
  if ← look Endpoint.firstRun then emitInit
  else receiveByte D r
  sendByte D r

/-- `event_loop`. A call that finds no token to take changes nothing, so the
handshake is an operation that waits for it. -/
def eventLoop (D : DescriptorHelper) (r : Role) : Comm Unit := do
  if ← look (Endpoint.handshakeQuery r) then
    let data ← access .handshake .handshake
    change fun s => { s with comIn := data }
    cycle D r
    triggerResolve
    access .handshakeAck (.handshakeAck (← look Endpoint.comOut))

end SOS
