import Kindling.Database.Rows
import Kindling.Lib.Channel
import Kindling.Lib.Text
import Kindling.Lib.Typestate

/-!
# The broker of dashboard events

`internal/rpc/dashboard_events.go`. Publishers, subscribers and the ends of subscriptions share the map
of subscriptions behind a lock. Each section under the lock is one call, and so is each operation on a
channel. Loops over the map take the subscriptions in any order.
-/

namespace Kindling

open Fallible

structure DashboardInvalidateEvent where
  topic : String
  «at» : Time
  deriving DecidableEq, Repr

structure DashSub where
  id : Int64
  topics : List String
  ch : Nat
  deriving DecidableEq, Repr

/-- The broker and the channels of its subscribers. -/
structure BrokerWorld where
  subs : Table Int64 DashSub (·.id) := .empty
  nextID : Int64 := 0
  chans : List (Chan DashboardInvalidateEvent) := []
  panics : List Panic := []

/-- The clock, and the order of a loop over the map. -/
structure BrokerAnswer where
  now : Time := 0
  order : List Int64 := []
  deriving Inhabited

inductive BrokerOp : Type → Type 1
  | now : BrokerOp Time
  /-- The section of `Publish` that copies the subscriptions. -/
  | subscriptions : BrokerOp (List DashSub)
  /-- `select { case s.ch <- ev: default: }` -/
  | send (ch : Nat) (ev : DashboardInvalidateEvent) : BrokerOp (Except Panic Unit)
  /-- The section of `Subscribe` that enters a new subscription, with the channel made for it. -/
  | register (topics : List String) : BrokerOp (Int64 × Nat)
  /-- `<-ctx.Done()` -/
  | done : BrokerOp Unit
  /-- The section that deletes a subscription. -/
  | unregister (id : Int64) : BrokerOp Unit
  | close (ch : Nat) : BrokerOp (Except Panic Unit)
  | receive (ch : Nat) : BrokerOp Unit

/-- The subscriptions in the order of the answer, and those it does not name after them. -/
def rangeSubs (order : List Int64) (subs : List DashSub) : List DashSub :=
  order.dedup.filterMap (fun id => subs.find? (·.id == id)) ++
    subs.filter fun s => !order.contains s.id

namespace BrokerWorld

/-- Operate on a channel; a panic is recorded. -/
def onChan (w : BrokerWorld) (ch : Nat)
    (f : Chan DashboardInvalidateEvent → Except Panic (Chan DashboardInvalidateEvent)) :
    Except Panic Unit × BrokerWorld :=
  let r := Chan.change w.chans ch f
  (r.1, { w with
    chans := r.2
    panics := match r.1 with
      | .ok _ => w.panics
      | .error p => p :: w.panics })

/-- The number of events that wait for a subscriber. -/
def chanCapacity : Nat := 64

def register (w : BrokerWorld) (topics : List String) : (Int64 × Nat) × BrokerWorld :=
  ((w.nextID, w.chans.length), { w with
    subs := w.subs.put { id := w.nextID, topics, ch := w.chans.length }
    nextID := w.nextID + 1
    chans := w.chans ++ [{ capacity := chanCapacity }] })

end BrokerWorld

def BrokerOp.step : BrokerOp β → BrokerAnswer → BrokerWorld → β × BrokerWorld
  | now, a, w => (a.now, w)
  | subscriptions, a, w => (rangeSubs a.order w.subs.rows, w)
  | send ch ev, _, w => w.onChan ch (Chan.trySend ev)
  | register topics, _, w => w.register topics
  | done, _, w => ((), w)
  | unregister id, _, w => ((), { w with subs := w.subs.keep (·.id != id) })
  | close ch, _, w => w.onChan ch Chan.close
  | receive ch, _, w => ((), (w.onChan ch fun c => .ok c.receive).2)

instance : Atomic BrokerOp BrokerAnswer BrokerWorld where
  step := BrokerOp.step

def publish (topic : String) : Fallible Panic BrokerOp Unit :=
  if topic == "" then return
  else do
    let now ← ofTotal .now
    let subs ← ofTotal .subscriptions
    forEach subs fun s =>
      if !s.topics.contains topic then return
      else ofCall (.send s.ch ⟨topic, now⟩)

def publishMany (topics : List String) : Fallible Panic BrokerOp Unit := forEach topics publish

/-- Letters and digits of any script are told by a function. -/
def validDashboardTopic (letterOrDigit : Char → Bool) (s : String) : Bool :=
  decide (s.utf8ByteSize ≤ 128) &&
    s.toList.all fun c => c == ':' || c == '_' || c == '-' || c == '.' || letterOrDigit c

/-- `Subscribe`, and the goroutine that ends the subscription. -/
def subscribe (letterOrDigit : Char → Bool) (topics : List String) :
    Fallible Panic BrokerOp Unit := do
  let want := (topics.map trimSpace).filter fun t => t != "" && validDashboardTopic letterOrDigit t
  let (id, ch) ← ofTotal (.register want)
  ofTotal .done
  ofTotal (.unregister id)
  ofCall (.close ch)

inductive BrokerActor
  | publisher (n : Nat)
  | subscriber (n : Nat)
  /-- The loop of a stream over the events of its subscription. -/
  | stream (n : Nat)
  deriving DecidableEq, Repr

def brokerStarts : BrokerActor → Prog BrokerOp (Except Panic Unit) → Prop
  | .publisher _, p => ∃ topics, p = publishMany topics
  | .subscriber _, p => ∃ letterOrDigit topics, p = subscribe letterOrDigit topics
  | .stream _, p => ∃ (ch : Nat) (n : Nat),
    p = forEach (List.replicate n ch) fun ch => (ofTotal (.receive ch) : Fallible Panic BrokerOp Unit)

abbrev BrokerTeam := Team BrokerActor BrokerOp (Except Panic Unit) BrokerWorld

end Kindling
