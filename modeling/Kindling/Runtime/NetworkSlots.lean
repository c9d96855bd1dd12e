import Kindling.Lib.Machine

/-!
# Network slots

`reserveCrunNetworkSlot` of `internal/runtime/crun_net_linux.go` and `reserveCHExecSlot` of
`internal/builder/ch_exec_runner_linux.go`. Each atomic operation of a reservation is an event, and so
is what comes after it: the interface is created, or the owner goes away.
-/

namespace Kindling

inductive SlotUser | crun | chExec
  deriving DecidableEq

/-- `10.40.0.0` and `10.30.0.0` -/
def SlotUser.base : SlotUser → Nat
  | crun => (10 * 256 + 40) * 2 ^ 16
  | chExec => (10 * 256 + 30) * 2 ^ 16

def networkMaxSlots : Nat := 2 ^ 15

def SlotUser.hostIP (u : SlotUser) (slot : Nat) : Nat := u.base + slot * 2

def SlotUser.guestIP (u : SlotUser) (slot : Nat) : Nat := u.hostIP slot + 1

/-- The address of the `/31` of the guest. -/
def SlotUser.network (u : SlotUser) (slot : Nat) : Nat := u.guestIP slot / 2 * 2

/-- How far an owner has come: it looks for a free slot, has found one, has stored the counter and
returned, and has created the interface. -/
inductive Reservation
  | idle
  | scanning (start i : Nat)
  | found (slot : Nat)
  | reserved (slot : Nat)
  | connected (slot : Nat)
  deriving DecidableEq

structure SlotHost (ι : Type) where
  nextSlot : Nat := 0
  /-- The networks of the interfaces of the owners. -/
  routes : List Nat := []
  /-- Other routes with a mask of 31 bits. -/
  others : List Nat := []
  owners : ι → Reservation := fun _ => .idle

inductive SlotEvent (ι : Type)
  | add (i : ι)
  | scan (i : ι) (fail : Bool)
  | store (i : ι)
  | connect (i : ι)
  | leave (i : ι)
  | others (routes : List Nat)

variable {ι : Type} [DecidableEq ι]

def SlotHost.put (w : SlotHost ι) (i : ι) (r : Reservation) : SlotHost ι :=
  { w with owners := Function.update w.owners i r }

def scannedSlot (start i : Nat) : Nat := (start + i) % 2 ^ 32 % networkMaxSlots

def SlotHost.step (u : SlotUser) (w : SlotHost ι) : SlotEvent ι → Option (SlotHost ι)
  | .add i => match w.owners i with
    | .idle => some { w.put i (.scanning w.nextSlot 0) with nextSlot := (w.nextSlot + 1) % 2 ^ 32 }
    | _ => none
  | .scan i fail => match w.owners i with
    | .scanning start k =>
      let slot := scannedSlot start k
      if fail then some (w.put i .idle)
      else if u.network slot ∉ w.routes ++ w.others then some (w.put i (.found slot))
      else if k + 1 < networkMaxSlots then some (w.put i (.scanning start (k + 1)))
      else some (w.put i .idle)
    | _ => none
  | .store i => match w.owners i with
    | .found slot => some { w.put i (.reserved slot) with nextSlot := slot + 1 }
    | _ => none
  | .connect i => match w.owners i with
    | .reserved slot => some { w.put i (.connected slot) with routes := u.network slot :: w.routes }
    | _ => none
  | .leave i => match w.owners i with
    | .connected slot => some { w.put i .idle with routes := w.routes.erase (u.network slot) }
    | _ => some (w.put i .idle)
  | .others routes => some { w with others := routes }

end Kindling
