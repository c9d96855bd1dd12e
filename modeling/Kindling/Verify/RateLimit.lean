import Mathlib.Data.Int.Order.Basic
import Kindling.RateLimit.Limiter

/-!
What a rate limiter lets through, over whole histories. Per client the windows follow each other with at
least a window's length between their starts, so an interval of that length meets two of them at most.
A cleanup only takes buckets that the next request of the client replaces anyway.
-/

namespace Kindling.RateLimit

/-- How many requests of the client were let through from `lo` to before `hi`. -/
def granted (ds : List Decision) (ip : String) (lo hi : Int) : Int :=
  ds.countP fun d => d.ip = ip ∧ d.allowed ∧ lo ≤ d.time ∧ d.time < hi

/-- The client has had a window that started at `s`. -/
def IsWindow (l : Limiter) (events : List Event) (ip : String) (s : Int) : Prop :=
  ∃ past, past <+: events ∧ ∃ b, (l.run past).1.buckets ip = some b ∧ b.windowStart = s

def decisions (limit window : Int) (events : List Event) : List Decision :=
  ((Limiter.new limit window).run events).2

/-- The history without the cleanups. -/
def requests (events : List Event) : List Event := events.filter (·.2 ≠ .cleanup)

variable {l : Limiter} {ds : List Decision} {ip : String} {lo hi now t : Int} {b : Bucket}

section granted

theorem granted_append : granted (ds ++ [d]) ip lo hi =
    granted ds ip lo hi + if d.ip = ip ∧ d.allowed ∧ lo ≤ d.time ∧ d.time < hi then 1 else 0 := by
  simp only [granted, List.countP_append, List.countP_singleton, decide_eq_true_eq]
  split <;> simp

theorem granted_mono (hlo : lo ≤ lo') (hhi : hi' ≤ hi) :
    granted ds ip lo' hi' ≤ granted ds ip lo hi := by
  refine Int.ofNat_le.mpr (List.countP_mono_left fun d _ h => ?_)
  simp only [decide_eq_true_eq] at h ⊢
  exact ⟨h.1, h.2.1, by omega, by omega⟩

theorem granted_split (mid : Int) :
    granted ds ip lo hi ≤ granted ds ip lo mid + granted ds ip mid hi := by
  induction ds with
  | nil => simp [granted]
  | cons d ds ih =>
    simp only [granted, List.countP_cons] at ih ⊢
    split_ifs <;> grind

theorem granted_empty (h : hi ≤ lo) : granted ds ip lo hi = 0 := by
  simp only [granted, Int.natCast_eq_zero, List.countP_eq_zero, decide_eq_true_eq]
  intro d _ hd
  omega

end granted

/-! ## Windows -/

/-- A client is in the window of `b`; `g` counts what it was granted, and `W` are the starts of its
windows so far. -/
structure InWindow (limit window : Int) (g : Int → Int → Int) (W : Int → Prop) (b : Bucket) : Prop where
  later : ∀ hi, g (b.windowStart + window) hi = 0
  here : ∀ hi, g b.windowStart hi ≤ min b.count limit
  before : ∀ lo, b.windowStart - window ≤ lo → g lo b.windowStart ≤ limit
  windows : ∀ s, W s → s = b.windowStart ∨ s + window ≤ b.windowStart ∧ g s (s + window) ≤ limit
  sliding : ∀ t, g t (t + window) ≤ 2 * limit

section windows
variable {limit window : Int} {W : Int → Prop}

theorem InWindow.openWindow (h : InWindow limit window (granted ds ip) W b) (hb : b.Expired window now)
    (h0 : 0 < window) (hl : 1 ≤ limit) :
    InWindow limit window (granted (ds ++ [⟨now, ip, true, remaining, reset⟩]) ip)
      (fun s => W s ∨ s = now) ⟨1, now⟩ := by
  simp only [Bucket.Expired] at hb
  have hlater : ∀ hi, granted ds ip now hi = 0 := fun hi =>
    le_antisymm (h.later hi ▸ granted_mono (by omega) le_rfl) (Int.natCast_nonneg _)
  have hrecent : ∀ lo hi, now - window ≤ lo → granted ds ip lo hi ≤ limit := by
    intro lo hi hlo
    have hm : granted ds ip lo hi ≤ granted ds ip b.windowStart hi := granted_mono (by omega) le_rfl
    have := h.here hi
    omega
  refine ⟨fun hi => ?_, fun hi => ?_, fun lo hlo => ?_, fun s hs => ?_, fun t => ?_⟩
  all_goals rw [granted_append]
  · have hm : granted ds ip (now + window) hi ≤ granted ds ip now hi := granted_mono (by omega) le_rfl
    rw [hlater] at hm
    rw [if_neg (by simp; omega), le_antisymm hm (Int.natCast_nonneg _)]
    rfl
  · dsimp only
    rw [hlater hi]
    split_ifs <;> omega
  · simpa using hrecent lo now hlo
  · rcases hs with hs | rfl
    · have hwindow : s + window ≤ now ∧ granted ds ip s (s + window) ≤ limit := by
        have := h.here (b.windowStart + window)
        rcases h.windows s hs with rfl | hs <;> omega
      exact .inr (by dsimp only; omega)
    · exact .inl rfl
  · split_ifs with hd
    · have := hrecent t (t + window) (by simp at hd; omega)
      omega
    · simpa using h.sliding t

/-- A further request in a window. -/
theorem InWindow.count (h : InWindow l.limit l.window (granted ds ip) W b) (hnow : b.windowStart ≤ now)
    (hb : ¬b.Expired l.window now) (hl : 1 ≤ l.limit) :
    InWindow l.limit l.window (granted (ds ++ [(l.count now ip b).2]) ip) W
      { b with count := b.count + 1 } := by
  simp only [Bucket.Expired] at hb
  by_cases hc : b.count + 1 > l.limit
  · -- refused, so nothing is granted
    have hg : ∀ lo hi, granted (ds ++ [(l.count now ip b).2]) ip lo hi = granted ds ip lo hi := by
      intro lo hi
      simp [granted_append, Limiter.count, hc]
    exact ⟨by simpa only [hg] using h.later, fun hi => by have := h.here hi; rw [hg]; simp only; omega,
      by simpa only [hg] using h.before, by simpa only [hg] using h.windows,
      by simpa only [hg] using h.sliding⟩
  · have hg : ∀ lo hi, granted (ds ++ [(l.count now ip b).2]) ip lo hi =
        granted ds ip lo hi + if lo ≤ now ∧ now < hi then 1 else 0 := by
      intro lo hi
      simp [granted_append, Limiter.count, hc]
    have hhere : ∀ hi, granted (ds ++ [(l.count now ip b).2]) ip b.windowStart hi ≤
        min (b.count + 1) l.limit := by
      intro hi
      have := h.here hi
      rw [hg]
      split_ifs <;> omega
    refine ⟨fun hi => ?_, hhere, fun lo hlo => ?_, fun s hs => ?_, fun t => ?_⟩
    · rw [hg, h.later hi, if_neg (by dsimp only; omega)]
      rfl
    · rw [hg, if_neg (by simp only; omega)]
      simpa using h.before lo hlo
    · refine (h.windows s hs).imp id fun hs => ⟨hs.1, ?_⟩
      rw [hg, if_neg (by omega)]
      simpa using hs.2
    · -- the interval meets this window and the one before it
      by_cases hd : t ≤ now ∧ now < t + l.window
      · have hsplit : granted (ds ++ [(l.count now ip b).2]) ip t (t + l.window) ≤ _ :=
          granted_split b.windowStart
        have := hhere (t + l.window)
        by_cases ht : t ≤ b.windowStart
        · have := h.before t (by omega)
          have := hg t b.windowStart
          omega
        · have hm : granted (ds ++ [(l.count now ip b).2]) ip t (t + l.window) ≤
              granted _ ip b.windowStart _ := granted_mono (by omega) le_rfl
          omega
      · rw [hg, if_neg hd]
        simpa using h.sliding t

/-- What is known of a client after a history that ends at `now`: its bucket is there, or has expired. -/
def Holds (limit window : Int) (g : Int → Int → Int) (W : Int → Prop) (now : Int) (o : Option Bucket) :
    Prop :=
  ∃ b, InWindow limit window g W b ∧ b.windowStart ≤ now ∧ (o = some b ∨ o = none ∧ b.Expired window now)

theorem Holds.mono (h : Holds limit window g W now o) (ht : now ≤ t) : Holds limit window g W t o := by
  obtain ⟨b, hb, hnow, ho⟩ := h
  refine ⟨b, hb, by omega, ho.imp_right fun ho => ⟨ho.1, ?_⟩⟩
  have := ho.2
  simp only [Bucket.Expired] at this ⊢
  omega

theorem Holds.cleanup (h : Holds limit window g W now o) :
    Holds limit window g W now (live window now o) := by
  obtain ⟨b, hb, hnow, rfl | ⟨rfl, he⟩⟩ := h
  · by_cases he : b.Expired window now
    · exact ⟨b, hb, hnow, .inr ⟨by simp [live, he], he⟩⟩
    · exact ⟨b, hb, hnow, .inl (by simp [live, he])⟩
  · exact ⟨b, hb, hnow, .inr ⟨rfl, he⟩⟩

theorem Holds.self (h : Holds limit window g W now o) :
    Holds limit window g (fun s => W s ∨ ∃ b, o = some b ∧ b.windowStart = s) now o := by
  obtain ⟨b, hb, hnow, ho⟩ := h
  refine ⟨b, { hb with windows := fun s hs => ?_ }, hnow, ho⟩
  rcases hs with hs | ⟨b', hb', rfl⟩
  · exact hb.windows s hs
  · obtain rfl : b = b' := by simpa [hb', eq_comm] using ho
    exact .inl rfl

theorem Holds.bounds (h : Holds limit window g W now o) :
    (∀ t, g t (t + window) ≤ 2 * limit) ∧ ∀ s, W s → g s (s + window) ≤ limit := by
  obtain ⟨b, hb, -⟩ := h
  refine ⟨hb.sliding, fun s hs => ?_⟩
  rcases hb.windows s hs with rfl | hs
  · exact le_trans (hb.here _) (min_le_right ..)
  · exact hs.2

theorem Holds.allow (h : Holds l.limit l.window (granted ds ip) W now (l.buckets ip))
    (h0 : 0 < l.window) (hl : 1 ≤ l.limit) :
    Holds l.limit l.window (granted (ds ++ [(l.allow now ip).2]) ip)
      (fun s => W s ∨ ∃ b, (l.allow now ip).1.buckets ip = some b ∧ b.windowStart = s) now
      ((l.allow now ip).1.buckets ip) := by
  obtain ⟨b, hb, hnow, ho⟩ := h
  by_cases he : b.Expired l.window now
  · have ha : l.allow now ip = l.openWindow now ip := by
      rcases ho with ho | ⟨ho, -⟩ <;> simp [Limiter.allow, ho, he]
    rw [ha]
    simp only [Limiter.openWindow, Limiter.set, Function.update_self, Option.some.injEq, exists_eq_left']
    exact ⟨_, by simpa only [eq_comm] using hb.openWindow he h0 hl, le_rfl, .inl rfl⟩
  · have ha : l.allow now ip = l.count now ip b := by
      rcases ho with ho | ⟨-, ho⟩
      · simp [Limiter.allow, ho, he]
      · exact absurd ho he
    rw [ha]
    exact .self ⟨_, hb.count hnow he hl, hnow, .inl (Function.update_self ..)⟩

end windows

theorem isWindow_append : IsWindow l (events ++ [e]) ip s ↔
    IsWindow l events ip s ∨ ∃ b, (l.run (events ++ [e])).1.buckets ip = some b ∧ b.windowStart = s := by
  simp only [IsWindow, List.prefix_concat_iff]
  constructor
  · rintro ⟨past, rfl | hp, hb⟩
    · exact .inr hb
    · exact .inl ⟨past, hp, hb⟩
  · rintro (⟨past, hp, hb⟩ | hb)
    · exact ⟨past, .inr hp, hb⟩
    · exact ⟨_, .inl rfl, hb⟩

theorem run_settings (events : List Event) : (l.run events).1.limit = l.limit ∧ (l.run events).1.window = l.window := by
  induction events using List.reverseRecOn with
  | nil => exact ⟨rfl, rfl⟩
  | append_singleton events e ih =>
    rw [run_append]
    obtain ⟨now, ip | _⟩ := e
    · simp only [step, Limiter.allow]
      split
      · exact ih
      · split <;> exact ih
    · exact ih

theorem allow_other (h : ip' ≠ ip) :
    (l.allow t ip').1.buckets ip = l.buckets ip ∧ (l.allow t ip').2.ip = ip' := by
  have hset : ∀ b, (l.set ip' b).buckets ip = l.buckets ip := fun b => Function.update_of_ne h.symm ..
  have hcount : ∀ b, (l.count t ip' b).2.ip = ip' := fun b => by simp only [Limiter.count]; split <;> rfl
  simp only [Limiter.allow]
  split
  · exact ⟨hset _, rfl⟩
  · split
    · exact ⟨hset _, rfl⟩
    · exact ⟨hset _, hcount _⟩

/-- What one call does to what is known of a client. -/
theorem Holds.step {s : Limiter × List Decision}
    (h : Holds s.1.limit s.1.window (granted s.2 ip) W e.1 (s.1.buckets ip))
    (h0 : 0 < s.1.window) (hl : 1 ≤ s.1.limit) :
    Holds s.1.limit s.1.window (granted (step s e).2 ip)
      (fun x => W x ∨ ∃ b, (RateLimit.step s e).1.buckets ip = some b ∧ b.windowStart = x) e.1
      ((RateLimit.step s e).1.buckets ip) := by
  obtain ⟨now, ip' | _⟩ := e
  · by_cases hip : ip' = ip
    · subst hip
      exact h.allow h0 hl
    · obtain ⟨hbucket, hd⟩ := allow_other (l := s.1) (t := now) hip
      have hg : granted (s.2 ++ [(s.1.allow now ip').2]) ip = granted s.2 ip :=
        funext₂ fun _ _ => by simp [granted_append, hd, hip]
      simp only [RateLimit.step, hbucket, hg]
      exact h.self
  · exact h.cleanup.self

/-- After every history, each client is idle or in the window of its bucket. -/
theorem run_holds (h0 : 0 < window) (hl : 1 ≤ limit) (hs : events.Pairwise (·.1 ≤ ·.1))
    (ht : ∀ e ∈ events, e.1 ≤ t) (ip : String) :
    Holds limit window (granted ((Limiter.new limit window).run events).2 ip)
      (IsWindow (.new limit window) events ip) t
      (((Limiter.new limit window).run events).1.buckets ip) := by
  induction events using List.reverseRecOn generalizing t with
  | nil =>
    refine ⟨⟨0, t - window⟩, ⟨?_, ?_, ?_, ?_, ?_⟩, by simp; omega, .inr ⟨rfl, by simp only [Bucket.Expired]; omega⟩⟩
    all_goals simp [Limiter.run, granted, IsWindow, Limiter.new]; try omega
  | append_singleton events e ih =>
    simp only [List.pairwise_append, List.mem_singleton, forall_eq] at hs
    have h := ih hs.1 (fun e he => hs.2.2 e he)
    refine .mono ?_ (ht e (by simp))
    obtain ⟨hlimit, hwindow⟩ : _ = limit ∧ _ = window :=
      run_settings (l := .new limit window) events
    have hstep := Holds.step (by rwa [hlimit, hwindow]) (by rwa [hwindow]) (by rwa [hlimit])
    rw [show IsWindow _ _ _ = _ from funext fun _ => propext isWindow_append, run_append]
    rwa [hlimit, hwindow] at hstep

theorem live_live (ht : now ≤ t) : live window t (live window now o) = live window t o := by
  cases o with
  | none => rfl
  | some b =>
    by_cases hb : b.Expired window now
    · have : b.Expired window t := by simp only [Bucket.Expired] at hb ⊢; omega
      simp [live, hb, this]
    · simp [live, hb]

theorem cleanup_cleanup (ht : now ≤ t) : (l.cleanup now).cleanup t = l.cleanup t :=
  congrArg (Limiter.mk _ _) (funext fun _ => live_live ht)

theorem set_cleanup (ht : now ≤ t) : ((l.cleanup now).set ip b).cleanup t = (l.set ip b).cleanup t := by
  refine congrArg (Limiter.mk _ _) (funext fun other => ?_)
  by_cases ho : other = ip
  · simp [Limiter.set, ho, Limiter.cleanup]
  · simp only [Limiter.set, Function.update_of_ne ho]
    exact live_live ht

/-- A request does not see whether the expired buckets are still there. -/
theorem allow_cleanup (l : Limiter) (ip : String) (ht : now ≤ t) :
    ((l.cleanup now).allow now ip).2 = (l.allow now ip).2 ∧
    ((l.cleanup now).allow now ip).1.cleanup t = (l.allow now ip).1.cleanup t := by
  have hb : (l.cleanup now).buckets ip = live l.window now (l.buckets ip) := rfl
  cases ho : l.buckets ip with
  | none => simpa [Limiter.allow, hb, ho] using ⟨rfl, set_cleanup ht⟩
  | some b =>
    by_cases he : b.Expired l.window now
    · simpa [Limiter.allow, live, hb, ho, he] using ⟨rfl, set_cleanup ht⟩
    · have he' : ¬b.Expired (l.cleanup now).window now := he
      simpa [Limiter.allow, live, hb, ho, he, he'] using ⟨rfl, set_cleanup ht⟩

/-- With and without the cleanups, a limiter decides the same and ends with the same live buckets. -/
theorem run_requests (hs : events.Pairwise (·.1 ≤ ·.1)) (ht : ∀ e ∈ events, e.1 ≤ t) :
    (l.run events).1.cleanup t = (l.run (requests events)).1.cleanup t ∧
    (l.run events).2 = (l.run (requests events)).2 := by
  induction events using List.reverseRecOn generalizing t with
  | nil => exact ⟨rfl, rfl⟩
  | append_singleton events e ih =>
    simp only [List.pairwise_append, List.mem_singleton, forall_eq] at hs
    obtain ⟨now, ip | _⟩ := e
    · obtain ⟨hc, hd⟩ := ih hs.1 (fun e he => hs.2.2 e he)
      have hnow : now ≤ t := ht (now, .request ip) (by simp)
      have hl := allow_cleanup (l.run events).1 ip hnow
      have hr := allow_cleanup (l.run (requests events)).1 ip hnow
      rw [hc] at hl
      have hreq : requests (events ++ [(now, .request ip)]) = requests events ++ [(now, .request ip)] := by
        simp [requests]
      rw [hreq, run_append, run_append]
      exact ⟨hl.2.symm.trans hr.2, by simp only [step, hd, ← hl.1, hr.1]⟩
    · obtain ⟨hc, hd⟩ := ih hs.1 (fun e he => ht e (by simp [he]))
      have hnow : now ≤ t := ht (now, .cleanup) (by simp)
      have hreq : requests (events ++ [(now, .cleanup)]) = requests events := by simp [requests]
      rw [hreq, run_append]
      exact ⟨(cleanup_cleanup hnow).trans hc, hd⟩

/-- Over every history a client gets `limit` requests per window and twice that in any interval of a
window's length, and cleanups change no decision. -/
theorem limiter_holds (hl : 1 ≤ limit) (hs : events.Pairwise (·.1 ≤ ·.1)) (ip : String) :
    (∀ t, granted (decisions limit window events) ip t (t + window) ≤ 2 * limit) ∧
    (∀ s, IsWindow (Limiter.new limit window) events ip s →
      granted (decisions limit window events) ip s (s + window) ≤ limit) ∧
    decisions limit window events = decisions limit window (requests events) := by
  obtain ⟨t, ht⟩ : ∃ t, ∀ e ∈ events, e.1 ≤ t := by
    rcases List.eq_nil_or_concat events with rfl | ⟨past, last, rfl⟩
    · simp
    · refine ⟨last.1, fun e he => ?_⟩
      simp only [List.concat_eq_append, List.pairwise_append, List.mem_append, List.mem_singleton,
        forall_eq] at hs he
      rcases he with he | rfl
      · exact hs.2.2 e he
      · exact le_rfl
  have hbounds : 0 < window → _ := fun h0 => (run_holds h0 hl hs ht ip).bounds
  refine ⟨fun t => ?_, fun s hw => ?_, (run_requests hs ht).2⟩
  all_goals by_cases h0 : 0 < window
  · exact (hbounds h0).1 t
  · rw [granted_empty (by omega)]
    omega
  · exact (hbounds h0).2 s hw
  · rw [granted_empty (by omega)]
    omega

def burst : List Event := [(0, .request "a"), (9, .request "a"), (10, .cleanup), (11, .request "a")]

/-- The client is let through again right after its window, with a cleanup in between. -/
theorem burst_limited : (decisions 1 10 burst).map (·.allowed) = [true, false, true] ∧
    granted (decisions 1 10 burst) "a" 2 12 ≤ 2 :=
  ⟨by decide, (limiter_holds (by decide) (by decide) "a").1 2⟩

end Kindling.RateLimit
