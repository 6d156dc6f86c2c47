import Mathlib.Algebra.Group.Nat.Defs
import Mathlib.Tactic.Common

/-!
# The link state machine

This module embeds `ble_link.cpp`, which judges from an observation how far
bring-up has come and advises what to do next, and the two halves of its bridge:
the packing in `link_bridge.cpp` and the unpacking in `link_types.dart`.
-/

namespace GoproNative

inductive LinkState
  | absent
  | advertising
  | connected
  | servicesResolved
  | encrypted
  | ready
  deriving DecidableEq, Repr

inductive LinkAction
  | none
  | scan
  | disconnectClassic
  | connect
  | waitForServices
  | pair
  | subscribe
  deriving DecidableEq, Repr

inductive StallReason
  | none
  | noAdvertisement
  | classicBlocking
  | connectFailed
  | servicesNeverAppeared
  | wrongDevice
  | notEncrypted
  | subscribeFailed
  deriving DecidableEq, Repr

structure LinkObservation where
  leCandidatePresent : Bool := false
  classicLinkUp : Bool := false
  connected : Bool := false
  /-- Recorded but never gating. -/
  bondedFlag : Bool := false
  attributeCount : Nat := 0
  controlCharsFound : Bool := false
  notifySucceeded : Bool := false
  subscribedCount : Nat := 0
  requiredSubscriptions : Nat := 1
  deriving DecidableEq, Repr

structure LinkAdvice where
  state : LinkState := .absent
  action : LinkAction := .scan
  stall : StallReason := .none
  detail : String := ""
  retryAtMs : UInt64 := 0
  deriving DecidableEq, Repr

structure LinkConfig where
  connectTimeoutMs : UInt32 := 10000
  servicesTimeoutMs : UInt32 := 15000
  encryptTimeoutMs : UInt32 := 60000
  subscribeTimeoutMs : UInt32 := 10000
  backoffInitialMs : UInt32 := 1000
  backoffMaxMs : UInt32 := 30000
  deriving DecidableEq

structure LinkMachine where
  cfg : LinkConfig
  state : LinkState := .absent
  stateSinceMs : UInt64 := 0
  lastFailureMs : UInt64 := 0
  attempts : UInt32 := 0
  seenBondedWithoutEncryption : Bool := false

namespace LinkMachine

def reset (m : LinkMachine) : LinkMachine := { cfg := m.cfg }

/-- The doubling loop of `backoff_ms`, which stops at the cap. -/
def backoffLoop (cap : UInt64) : Nat → UInt64 → UInt64
  | 0, ms => ms
  | n + 1, ms => if ms < cap then backoffLoop cap n (ms * 2) else ms

def backoffMs (m : LinkMachine) : UInt32 :=
  if m.attempts = 0 then 0
  else
    let cap := m.cfg.backoffMaxMs.toUInt64
    let ms := backoffLoop cap (m.attempts.toNat - 1) m.cfg.backoffInitialMs.toUInt64
    (if ms < cap then ms else cap).toUInt32

def noteAttemptFailed (m : LinkMachine) (nowMs : UInt64) : LinkMachine :=
  { m with attempts := m.attempts + 1, lastFailureMs := nowMs }

/-- The stage an observation shows. -/
def classify (obs : LinkObservation) : LinkState :=
  if !obs.connected then
    if obs.leCandidatePresent then .advertising else .absent
  else if obs.attributeCount = 0 || !obs.controlCharsFound then .connected
  else if !obs.notifySucceeded then .servicesResolved
  else if obs.subscribedCount < obs.requiredSubscriptions then .encrypted
  else .ready

/-- The part of `update` that moves the machine. -/
def enter (m : LinkMachine) (obs : LinkObservation) (nowMs : UInt64) : LinkMachine :=
  let next := classify obs
  let m :=
    if next ≠ m.state then
      { m with
        state := next, stateSinceMs := nowMs, attempts := 0, lastFailureMs := 0 }
    else m
  if obs.bondedFlag && !obs.notifySucceeded && m.state = .servicesResolved then
    { m with seenBondedWithoutEncryption := true }
  else m

/-- The part of `update` that reads the advice off the machine. -/
def advise (m : LinkMachine) (obs : LinkObservation) (nowMs : UInt64) : LinkAdvice :=
  let inStateMs := nowMs - m.stateSinceMs
  let retryAtMs :=
    if 0 < m.attempts then m.lastFailureMs + m.backoffMs.toUInt64 else 0
  let adv : LinkAdvice := { state := m.state, retryAtMs := retryAtMs }
  match m.state with
  | .absent =>
      if obs.classicLinkUp then
        { adv with
          action := .disconnectClassic
          stall := .classicBlocking
          detail :=
            "A BR-EDR link to this camera is up. Classic suppresses LE " ++
            "advertising, so the LE transport cannot be found until it is " ++
            "disconnected. Removing the Classic bond stops it reconnecting." }
      else if m.cfg.connectTimeoutMs.toUInt64 ≤ inStateMs then
        { adv with
          action := .scan
          stall := .noAdvertisement
          detail :=
            "Nothing advertising the Control & Query service. The camera is " ++
            "asleep, powered off, or has wireless disabled." }
      else { adv with action := .scan }
  | .advertising =>
      if 0 < m.attempts ∧ m.cfg.connectTimeoutMs.toUInt64 ≤ inStateMs then
        { adv with
          action := .connect
          stall := .connectFailed
          detail :=
            "The LE link is not establishing. Aborts during service discovery " ++
            "(le-connection-abort-by-local) are typical when the camera is " ++
            "dropping the link." }
      else { adv with action := .connect }
  | .connected =>
      if m.cfg.servicesTimeoutMs.toUInt64 ≤ inStateMs then
        if 0 < obs.attributeCount && !obs.controlCharsFound then
          { adv with
            action := .waitForServices
            stall := .wrongDevice
            detail :=
              "Attributes are exposed but the Control & Query characteristics " ++
              "are absent. This is probably the BR-EDR object rather than the " ++
              "LE one -- check the address type." }
        else
          { adv with
            action := .waitForServices
            stall := .servicesNeverAppeared
            detail :=
              "Connected but no GATT attributes appeared. Note that BlueZ may " ++
              "report ServicesResolved=true regardless; the attribute count is " ++
              "the reliable signal. A disconnect and reconnect usually clears " ++
              "it." }
      else { adv with action := .waitForServices }
  | .servicesResolved =>
      if m.cfg.encryptTimeoutMs.toUInt64 ≤ inStateMs then
        { adv with
          action := .pair
          stall := .notEncrypted
          detail :=
            if m.seenBondedWithoutEncryption then
              "Discovery works but StartNotify is refused. The Bonded flag " ++
              "is set, which is misleading -- a BR-EDR bond does not " ++
              "encrypt the LE link. An LE bond is required: put the camera " ++
              "in pairing mode and pair the random-address device."
            else
              "Discovery works but StartNotify is refused (\"Not " ++
              "paired\"). " ++
              "The Control & Query characteristics need an encrypted link. " ++
              "Put the camera in pairing mode and pair over LE." }
      else { adv with action := .pair }
  | .encrypted =>
      if m.cfg.subscribeTimeoutMs.toUInt64 ≤ inStateMs then
        { adv with
          action := .subscribe
          stall := .subscribeFailed
          detail :=
            "The link is encrypted but not every required characteristic is " ++
            "subscribed." }
      else { adv with action := .subscribe }
  | .ready => { adv with action := .none, retryAtMs := 0 }

/-- Folds an observation in and advises what to do next. -/
def update (m : LinkMachine) (obs : LinkObservation) (nowMs : UInt64) :
    LinkAdvice × LinkMachine :=
  ((m.enter obs nowMs).advise obs nowMs, m.enter obs nowMs)

end LinkMachine

/-! ## The bridge -/

def LinkState.values : List LinkState :=
  [.absent, .advertising, .connected, .servicesResolved, .encrypted, .ready]

def LinkAction.values : List LinkAction :=
  [.none, .scan, .disconnectClassic, .connect, .waitForServices, .pair, .subscribe]

def StallReason.values : List StallReason :=
  [.none, .noAdvertisement, .classicBlocking, .connectFailed, .servicesNeverAppeared,
    .wrongDevice, .notEncrypted, .subscribeFailed]

/-- What `gopro_link_update` returns: `(state << 16) | (action << 8) | stall`. -/
def LinkAdvice.pack (adv : LinkAdvice) : UInt32 :=
  (UInt32.ofNat (LinkState.values.idxOf adv.state) <<< 16) |||
    (UInt32.ofNat (LinkAction.values.idxOf adv.action) <<< 8) |||
    UInt32.ofNat (StallReason.values.idxOf adv.stall)

/-- `LinkAdvice.unpack`; `none` if a field is out of range. -/
def LinkAdvice.unpack (packed : UInt32) (detail : String) (retryAtMs : UInt64) :
    Option LinkAdvice := do
  let state ← LinkState.values[((packed >>> 16) &&& 0xFF).toNat]?
  let action ← LinkAction.values[((packed >>> 8) &&& 0xFF).toNat]?
  let stall ← StallReason.values[(packed &&& 0xFF).toNat]?
  return { state, action, stall, detail, retryAtMs }

/-- An observation as it crosses: the counts are 32-bit words, and zero required
subscriptions mean one. -/
def LinkObservation.bridged (obs : LinkObservation) : LinkObservation :=
  { obs with
    attributeCount := obs.attributeCount % 2 ^ 32
    subscribedCount := obs.subscribedCount % 2 ^ 32
    requiredSubscriptions :=
      if obs.requiredSubscriptions % 2 ^ 32 = 0 then 1
      else obs.requiredSubscriptions % 2 ^ 32 }

/-- `BleBindings.linkUpdate`. -/
def LinkMachine.linkUpdate (m : LinkMachine) (obs : LinkObservation) (nowMs : UInt64) :
    Option LinkAdvice × LinkMachine :=
  let updated := m.update obs.bridged nowMs
  (LinkAdvice.unpack updated.1.pack updated.1.detail updated.1.retryAtMs, updated.2)

end GoproNative
