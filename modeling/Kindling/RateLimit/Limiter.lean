import Mathlib.Data.List.Induction

/-!
The fixed-window rate limiter of the API (`internal/ratelimit/ratelimit.go`): `Allow`, the cleanup, and
the history of a limiter. Times are nanoseconds.
-/

namespace Kindling.RateLimit

structure Bucket where
  count : Int
  windowStart : Int

/-- `Limiter`; its map of buckets as a function. -/
structure Limiter where
  limit : Int
  window : Int
  buckets : String → Option Bucket

/-- `New` -/
def Limiter.new (limit window : Int) : Limiter := ⟨limit, window, fun _ => none⟩

def Bucket.Expired (window now : Int) (b : Bucket) : Prop := now - b.windowStart ≥ window

instance : Decidable (Bucket.Expired window now b) := inferInstanceAs (Decidable (_ ≥ _))

/-- `Time.Unix` -/
def unix (t : Int) : Int := t / 1000000000

structure Decision where
  time : Int
  ip : String
  allowed : Bool
  remaining : Int
  resetUnix : Int
  deriving DecidableEq

def Limiter.set (l : Limiter) (ip : String) (b : Bucket) : Limiter :=
  { l with buckets := Function.update l.buckets ip (some b) }

/-- A new window for the client. -/
def Limiter.openWindow (l : Limiter) (now : Int) (ip : String) : Limiter × Decision :=
  (l.set ip ⟨1, now⟩, ⟨now, ip, true, l.limit - 1, unix (now + l.window)⟩)

def Limiter.count (l : Limiter) (now : Int) (ip : String) (b : Bucket) : Limiter × Decision :=
  let count := b.count + 1
  let remaining := l.limit - count
  let resetUnix := unix (b.windowStart + l.window)
  (l.set ip { b with count },
    if count > l.limit then ⟨now, ip, false, 0, resetUnix⟩
    else ⟨now, ip, true, if remaining < 0 then 0 else remaining, resetUnix⟩)

/-- `Allow` -/
def Limiter.allow (l : Limiter) (now : Int) (ip : String) : Limiter × Decision :=
  match l.buckets ip with
  | none => l.openWindow now ip
  | some b => if b.Expired l.window now then l.openWindow now ip else l.count now ip b

/-- What a cleanup leaves of an entry of the map. -/
def live (window now : Int) : Option Bucket → Option Bucket
  | none => none
  | some b => if b.Expired window now then none else some b

def Limiter.cleanup (l : Limiter) (now : Int) : Limiter :=
  { l with buckets := fun ip => live l.window now (l.buckets ip) }

inductive Call
  | request (ip : String)
  | cleanup
  deriving DecidableEq

/-- A call and the time that it reads from the clock. -/
abbrev Event := Int × Call

def step (s : Limiter × List Decision) (e : Event) : Limiter × List Decision :=
  match e.2 with
  | .request ip => let (l, d) := s.1.allow e.1 ip; (l, s.2 ++ [d])
  | .cleanup => (s.1.cleanup e.1, s.2)

def Limiter.run (l : Limiter) (events : List Event) : Limiter × List Decision :=
  events.foldl step (l, [])

theorem run_append {l : Limiter} {events : List Event} :
    l.run (events ++ [e]) = step (l.run events) e := by
  simp [Limiter.run]

end Kindling.RateLimit
