import GoproNative.Link.Machine
import GoproNative.Session.Definitions

/-!
# Bring-up

This module embeds the climb of `_bringUp` in `ble_transport.dart`: the loop that
looks at the bus, asks the link machine, and acts on its advice.  Between two
awaits the loop runs to itself; at an await anything may happen to the link.  A
climb is therefore a state machine whose events are what the environment decides:
the link going and coming, what a pass of the loop sees, and how an awaited call
ends.

The device object is one and the same throughout a climb.  `notifying` is not a
variable of the source: it records the channels whose `StartNotify` returned on
the connection that is current.
-/

namespace GoproNative

/-- A characteristic the device exposes, by what `_locate` compares its UUID with. -/
inductive GattUuid
  | write (channel : Channel)
  | notify (channel : Channel)
  | other
  deriving DecidableEq, Repr

/-- The keys of `_characteristics`. -/
def requiredChannels : List Channel := [.command, .settings, .query]

/-- The keys of `_optionalChars`. -/
def optionalChannels : List Channel := [.network]

/-- The key order of an insertion-ordered map after `map[key] = …`. -/
def insertKey (keys : List Channel) (key : Channel) : List Channel :=
  if key ∈ keys then keys else keys ++ [key]

/-- Whether the required three pairs are located. -/
def complete (writes notifies : List Channel) : Bool :=
  requiredChannels.all fun c => decide (c ∈ writes) && decide (c ∈ notifies)

/-- `_locate`: for every channel in turn, looks through everything exposed. -/
def locate (chars : List GattUuid) (writes notifies : List Channel) :
    List Channel × List Channel :=
  let channels := requiredChannels ++ optionalChannels
  (channels.foldl (fun keys c => if .write c ∈ chars then insertKey keys c else keys) writes,
    channels.foldl (fun keys c => if .notify c ∈ chars then insertKey keys c else keys)
      notifies)

inductive Phase
  /-- At the head of the loop. -/
  | looking
  /-- In `_act`, before any `StartNotify`. -/
  | acting (action : LinkAction)
  /-- Awaiting `StartNotify` on a channel; `todo` are the entries after it, and
  `budget` how many more may be attempted (`none` is no cap). -/
  | subscribing (channel : Channel) (todo : List Channel) (budget : Option Nat)
  | returned
  | failed
  deriving DecidableEq

structure Climb where
  machine : LinkMachine
  connected : Bool
  writes : List Channel := []
  notifies : List Channel := []
  subscribed : List Channel := []
  phase : Phase := .looking
  notifying : List Channel := []

/-- What a pass of the loop sees on the bus. -/
structure Sighting where
  candidatePresent : Bool
  classicLinkUp : Bool
  paired : Bool
  chars : List GattUuid
  deriving DecidableEq

inductive ClimbEvent
  | disconnected
  | reconnected
  | observed (sight : Sighting) (nowMs : UInt64)
  /-- The time allowed has run out. -/
  | timedOut
  /-- The waits of `_act` that come before any `StartNotify` ended. -/
  | acted
  /-- One of them ended in a `BlueZException`. -/
  | actionRefused (nowMs : UInt64)
  | notifyStarted (channel : Channel)
  /-- `StartNotify` ended in a `BlueZException`. -/
  | notifyRefused (channel : Channel) (nowMs : UInt64)
  /-- Some other exception leaves `_act`. -/
  | aborted
  deriving DecidableEq

namespace Climb

/-- The loop of `_subscribe` up to its next `StartNotify`, or to its end. -/
def nextSubscription (subscribed todo : List Channel) (budget : Option Nat) : Phase :=
  match todo.dropWhile fun c => decide (c ∈ subscribed) with
  | [] => .looking
  | c :: rest =>
      if budget = some 0 then .looking
      else .subscribing c rest (budget.map fun n => n - 1)

/-- The observation a pass reports to the link machine. -/
def observation (c : Climb) (sight : Sighting) : LinkObservation where
  leCandidatePresent := sight.candidatePresent
  classicLinkUp := sight.classicLinkUp
  connected := sight.candidatePresent && c.connected
  bondedFlag := sight.candidatePresent && sight.paired
  attributeCount := if sight.candidatePresent then sight.chars.length else 0
  controlCharsFound := complete c.writes c.notifies
  notifySucceeded := !c.subscribed.isEmpty
  subscribedCount := c.subscribed.length
  requiredSubscriptions := requiredChannels.length

/-- Scans again until all six are found. -/
def relocate (c : Climb) (sight : Sighting) : Climb :=
  if sight.candidatePresent && c.connected && !complete c.writes c.notifies then
    let located := locate sight.chars c.writes c.notifies
    { c with writes := located.1, notifies := located.2 }
  else c

/-- A pass of the loop up to `_act`, or up to its return. -/
def observe (c : Climb) (sight : Sighting) (nowMs : UInt64) : Climb :=
  let c := c.relocate sight
  let updated := c.machine.linkUpdate (c.observation sight) nowMs
  let c := { c with machine := updated.2 }
  match updated.1 with
  | none => { c with phase := .failed }
  | some advice =>
      if advice.state = .ready then { c with phase := .returned }
      else { c with phase := .acting advice.action }

/-- What `_act` does once its waits are over. -/
def afterAction (c : Climb) : LinkAction → Phase
  | .pair => nextSubscription c.subscribed c.notifies (some 1)
  | .subscribe => nextSubscription c.subscribed c.notifies none
  | _ => .looking

def step (c : Climb) : ClimbEvent → Option Climb
  | .disconnected =>
      match c.phase with
      | .returned | .failed => none
      | _ => some { c with connected := false, notifying := [] }
  | .reconnected =>
      match c.phase with
      | .returned | .failed => none
      | _ => some { c with connected := true }
  | .observed sight nowMs =>
      match c.phase with
      | .looking => some (c.observe sight nowMs)
      | _ => none
  | .timedOut =>
      match c.phase with
      | .looking => some { c with phase := .failed }
      | _ => none
  | .acted =>
      match c.phase with
      | .acting action => some { c with phase := c.afterAction action }
      | _ => none
  | .actionRefused nowMs =>
      match c.phase with
      | .acting _ => some { c with
          machine := c.machine.noteAttemptFailed nowMs, phase := .looking }
      | _ => none
  | .notifyStarted channel =>
      match c.phase with
      | .subscribing channel' todo budget =>
          if channel = channel' then
            let subscribed := c.subscribed ++ [channel]
            some { c with
              subscribed := subscribed
              phase := nextSubscription subscribed todo budget
              notifying := if c.connected then c.notifying ++ [channel] else c.notifying }
          else none
      | _ => none
  | .notifyRefused channel nowMs =>
      match c.phase with
      | .subscribing channel' _ _ =>
          if channel = channel' then
            some { c with
              machine := c.machine.noteAttemptFailed nowMs, phase := .looking }
          else none
      | _ => none
  | .aborted =>
      match c.phase with
      | .acting _ | .subscribing _ _ _ => some { c with phase := .failed }
      | _ => none

/-- All climbs, from any state of the link machine and of the link. -/
def lts : Lts Climb ClimbEvent :=
  .ofPartial (fun c => ∃ machine connected, c = { machine, connected }) step

end Climb

end GoproNative
