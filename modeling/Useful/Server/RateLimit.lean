/-
# The rate limiter

`rateLimiter` of `services/internal/httpapi/server.go` keeps the times of the accepted
calls of each address, drops those that have left the window when the address calls
again, and from time to time drops the addresses whose last call has left it. Times and
durations are nanoseconds.

The reference is a window that slides over all accepted calls. What the limiter keeps of
an address is a part of them, and the part that is missing has left the window for good.
-/

import Mathlib.Algebra.Group.Int.Defs
import Mathlib.Data.List.Induction
import Useful.Math.Slice

namespace Useful.Server

open Useful.Math

/-- The zero value of `time.Time`, before the epoch. -/
def zeroTime : Int := -62135596800 * 10 ^ 9

/-- `time.Sub`, which stops at the ends of a duration. -/
def timeSub (t u : Int) : Int := max (-2 ^ 63) (min (2 ^ 63 - 1) (t - u))

structure RateLimiter where
  hits : String → Option (Slice Int)
  lastPurge : Int
  limit : Int
  window : Int

def newRateLimiter (limit window : Int) : RateLimiter where
  hits := fun _ => none
  lastPurge := zeroTime
  limit := limit
  window := window

namespace RateLimiter

/-- `rl.hits[ip]`: a missing bucket reads as the nil slice. -/
def bucket (rl : RateLimiter) (ip : String) : Slice Int := (rl.hits ip).getD .empty

def setBucket (rl : RateLimiter) (ip : String) (times : Slice Int) : RateLimiter :=
  { rl with hits := fun k => if k = ip then some times else rl.hits k }

/-- A bucket without a time in the window. -/
def idle (cutoff : Int) (times : Slice Int) : Bool := times.last?.all (· ≤ cutoff)

/-- Drop the idle buckets, once for each window. -/
def purge (rl : RateLimiter) (now : Int) : RateLimiter :=
  if rl.window < timeSub now rl.lastPurge then
    { rl with
      hits := fun k => (rl.hits k).filter fun times => !idle (now - rl.window) times
      lastPurge := now }
  else rl

/-- `allow`. -/
def allow (rl : RateLimiter) (ip : String) (now : Int) : Bool × RateLimiter :=
  let cutoff := now - rl.window
  let purged := rl.purge now
  let kept := (purged.bucket ip).retain fun t => cutoff < t
  if purged.limit ≤ kept.len then (false, purged.setBucket ip kept)
  else (true, purged.setBucket ip (kept.append now))

end RateLimiter

structure RequestCall where
  ip : String
  now : Int
  deriving DecidableEq, Repr

/-- Calls in turn: the limiter afterwards, and the calls that were accepted. -/
def serveCall (state : RateLimiter × List RequestCall) (call : RequestCall) : RateLimiter × List RequestCall :=
  let (accepted, limiter) := state.1.allow call.ip call.now
  (limiter, if accepted then state.2 ++ [call] else state.2)

def serveCalls (limit window : Int) (calls : List RequestCall) : RateLimiter × List RequestCall :=
  calls.foldl serveCall (newRateLimiter limit window, [])

/-- The accepted calls of an address between two times, without the first and with the last. -/
def inWindow (accepted : List RequestCall) (ip : String) (first last : Int) : List RequestCall :=
  accepted.filter fun call => call.ip = ip ∧ first < call.now ∧ call.now ≤ last

namespace RateLimiter

/-- The times of the accepted calls of an address. -/
def hitsOf (accepted : List RequestCall) (ip : String) : List Int :=
  (accepted.filter fun call => call.ip = ip).map RequestCall.now

/-! ## What the limiter keeps -/

/-- At a time, the limiter has not forgotten an accepted call that is still in the window,
and holds no other times than those of accepted calls. -/
structure Tracks (rl : RateLimiter) (accepted : List RequestCall) (time : Int) : Prop where
  past : ∀ call ∈ accepted, call.now ≤ time
  sorted : ∀ ip, (hitsOf accepted ip).Pairwise (· ≤ ·)
  kept : ∀ ip, (rl.bucket ip).items.Sublist (hitsOf accepted ip)
  current : ∀ ip cutoff, time - rl.window ≤ cutoff →
    (rl.bucket ip).items.filter (cutoff < ·) = (hitsOf accepted ip).filter (cutoff < ·)

variable {rl : RateLimiter} {accepted : List RequestCall} {time now : Int} {ip : String}

theorem bucket_setBucket (rl : RateLimiter) (ip k : String) (times : Slice Int) :
    (rl.setBucket ip times).bucket k = if k = ip then times else rl.bucket k := by
  unfold bucket setBucket
  split_ifs with h
  · simp [h]
  · simp [h]

theorem purge_limit (rl : RateLimiter) (now : Int) : (rl.purge now).limit = rl.limit := by
  unfold purge
  split <;> rfl

theorem purge_window (rl : RateLimiter) (now : Int) : (rl.purge now).window = rl.window := by
  unfold purge
  split <;> rfl

/-- The last of sorted times bounds them all. -/
theorem le_of_idle {times : Slice Int} {cutoff : Int} (hsorted : times.items.Pairwise (· ≤ ·))
    (h : idle cutoff times = true) : ∀ t ∈ times.items, t ≤ cutoff := by
  intro t ht
  have hne : times.items ≠ [] := List.ne_nil_of_mem ht
  rw [idle, Slice.last?, List.getLast?_eq_some_getLast hne, Option.all_some, decide_eq_true_eq] at h
  rw [← List.dropLast_concat_getLast hne] at hsorted ht
  cases List.mem_append.mp ht with
  | inl hbefore =>
      have hle := (List.pairwise_append.mp hsorted).2.2 t hbefore _ (List.mem_singleton_self _)
      exact Int.le_trans hle h
  | inr hlast => exact List.mem_singleton.mp hlast ▸ h

/-- What the purge does to a bucket. -/
theorem bucket_purge (rl : RateLimiter) (now : Int) (ip : String) :
    (rl.purge now).bucket ip = rl.bucket ip ∨
      (rl.purge now).bucket ip = .empty ∧ idle (now - rl.window) (rl.bucket ip) = true := by
  unfold purge
  split_ifs with hdue
  · simp only [bucket]
    cases hfind : rl.hits ip with
    | none => exact .inl rfl
    | some times =>
        by_cases hidle : idle (now - rl.window) times = true
        · exact .inr ⟨by simp [Option.filter, hidle], hidle⟩
        · exact .inl (by simp [Option.filter, hidle])
  · exact .inl rfl

theorem Tracks.later (h : Tracks rl accepted time) (hle : time ≤ now) : Tracks rl accepted now where
  past call hmem := Int.le_trans (h.past call hmem) hle
  sorted := h.sorted
  kept := h.kept
  current ip cutoff hcutoff := h.current ip cutoff (by omega)

/-- A purge forgets nothing that may still count. -/
theorem Tracks.purge (h : Tracks rl accepted now) : Tracks (rl.purge now) accepted now where
  past := h.past
  sorted := h.sorted
  kept ip := by
    cases bucket_purge rl now ip with
    | inl heq =>
        rw [heq]
        exact h.kept ip
    | inr hidle =>
        rw [hidle.1]
        exact List.nil_sublist _
  current ip cutoff hcutoff := by
    rw [purge_window] at hcutoff
    rw [← h.current ip cutoff hcutoff]
    cases bucket_purge rl now ip with
    | inl heq => rw [heq]
    | inr hidle =>
        have hall := le_of_idle ((h.sorted ip).sublist (h.kept ip)) hidle.2
        have hnone : (rl.bucket ip).items.filter (cutoff < ·) = [] := by
          rw [List.filter_eq_nil_iff]
          intro t ht
          have hle := hall t ht
          simp only [decide_eq_true_eq]
          omega
        rw [hidle.1, hnone]
        rfl

/-- The accepted calls still in the window. -/
theorem inWindow_eq (h : Tracks rl accepted now) :
    (inWindow accepted ip (now - rl.window) now).length =
      ((rl.bucket ip).items.filter (now - rl.window < ·)).length := by
  have hfilter : inWindow accepted ip (now - rl.window) now =
      (accepted.filter fun call => call.ip = ip).filter fun call => now - rl.window < call.now := by
    rw [inWindow, List.filter_filter]
    refine List.filter_congr fun call hmem => ?_
    simp [h.past call hmem, Bool.and_comm]
  rw [h.current ip _ (Int.le_refl _), hfilter, hitsOf, List.filter_map, List.length_map]
  rfl

theorem hitsOf_append (accepted : List RequestCall) (call : RequestCall) (k : String) :
    hitsOf (accepted ++ [call]) k =
      hitsOf accepted k ++ if call.ip = k then [call.now] else [] := by
  unfold hitsOf
  rw [List.filter_append, List.map_append]
  by_cases h : call.ip = k <;> simp [h]

/-- Dropping what has left the window forgets nothing either. -/
theorem Tracks.retain (h : Tracks rl accepted now) :
    Tracks (rl.setBucket ip ((rl.bucket ip).retain (now - rl.window < ·))) accepted now where
  past := h.past
  sorted := h.sorted
  kept k := by
    rw [bucket_setBucket]
    split_ifs with hk
    · rw [Slice.items_retain, hk]
      exact List.filter_sublist.trans (h.kept ip)
    · exact h.kept k
  current k cutoff hcutoff := by
    replace hcutoff : now - rl.window ≤ cutoff := hcutoff
    rw [bucket_setBucket, ← h.current k cutoff hcutoff]
    split_ifs with hk
    · rw [Slice.items_retain, List.filter_filter, hk]
      refine List.filter_congr fun t _ => ?_
      simp only [decide_eq_decide, ← Bool.decide_and]
      omega
    · rfl

/-- The time of an accepted call is put behind the others. -/
theorem Tracks.append {times : Slice Int} (h : Tracks (rl.setBucket ip times) accepted now) :
    Tracks (rl.setBucket ip (times.append now)) (accepted ++ [⟨ip, now⟩]) now where
  past call hmem := by
    cases List.mem_append.mp hmem with
    | inl hold => exact h.past call hold
    | inr hnew => exact List.mem_singleton.mp hnew ▸ Int.le_refl _
  sorted k := by
    have hpast : ∀ t ∈ hitsOf accepted k, t ≤ now := by
      intro t ht
      obtain ⟨call, hmem, rfl⟩ := List.mem_map.mp ht
      exact h.past call (List.mem_filter.mp hmem).1
    rw [hitsOf_append]
    split_ifs
    · refine List.pairwise_append.mpr ⟨h.sorted k, List.pairwise_singleton _ _, ?_⟩
      intro t ht u hu
      rw [List.mem_singleton.mp hu]
      exact hpast t ht
    · rw [List.append_nil]
      exact h.sorted k
  kept k := by
    have hkept := h.kept k
    rw [bucket_setBucket] at hkept ⊢
    rw [hitsOf_append]
    by_cases hk : k = ip
    · rw [if_pos hk] at hkept ⊢
      rw [if_pos hk.symm, Slice.items_append]
      exact hkept.append (List.Sublist.refl _)
    · rw [if_neg hk] at hkept ⊢
      rw [if_neg (Ne.symm hk), List.append_nil]
      exact hkept
  current k cutoff hcutoff := by
    have hcurrent := h.current k cutoff hcutoff
    rw [bucket_setBucket] at hcurrent ⊢
    rw [hitsOf_append]
    by_cases hk : k = ip
    · rw [if_pos hk] at hcurrent ⊢
      rw [if_pos hk.symm, Slice.items_append, List.filter_append, List.filter_append, hcurrent]
    · rw [if_neg hk] at hcurrent ⊢
      rw [if_neg (Ne.symm hk), List.append_nil]
      exact hcurrent

theorem allow_limit (rl : RateLimiter) (ip : String) (now : Int) :
    (rl.allow ip now).2.limit = rl.limit ∧ (rl.allow ip now).2.window = rl.window := by
  simp only [allow]
  split_ifs
  · exact ⟨purge_limit rl now, purge_window rl now⟩
  · exact ⟨purge_limit rl now, purge_window rl now⟩

/-- A call is accepted when fewer than the limit are in the window. -/
theorem allow_iff (h : Tracks rl accepted now) :
    (rl.allow ip now).1 = true ↔
      ((inWindow accepted ip (now - rl.window) now).length : Int) < rl.limit := by
  have hcount := @inWindow_eq _ _ _ ip h.purge
  rw [purge_window, ← Slice.items_retain, Slice.length_items] at hcount
  rw [hcount]
  simp only [allow, purge_limit]
  split_ifs with hfull
  · simp [Int.not_lt.mpr hfull]
  · simp [Int.not_le.mp hfull]

/-- The limiter goes on tracking the accepted calls. -/
theorem Tracks.allow (h : Tracks rl accepted now) :
    Tracks (rl.allow ip now).2
      (if (rl.allow ip now).1 then accepted ++ [⟨ip, now⟩] else accepted) now := by
  have hretain := @Tracks.retain _ _ _ ip h.purge
  rw [purge_window] at hretain
  by_cases hfull : (rl.purge now).limit ≤
      (((rl.purge now).bucket ip).retain fun t => now - rl.window < t).len
  · have hrefused : rl.allow ip now = (false, _) := if_pos hfull
    rw [hrefused]
    exact hretain
  · have haccepted : rl.allow ip now = (true, _) := if_neg hfull
    rw [haccepted]
    exact hretain.append

end RateLimiter

/-! ## Sequences of calls -/

open RateLimiter

variable {limit window : Int} {calls : List RequestCall} {call : RequestCall} {time : Int}

theorem serveCalls_append (limit window : Int) (calls : List RequestCall) (call : RequestCall) :
    serveCalls limit window (calls ++ [call]) =
      serveCall (serveCalls limit window calls) call := by
  rw [serveCalls, List.foldl_append]
  rfl

theorem sorted_append (h : ((calls ++ [call]).map RequestCall.now).Pairwise (· ≤ ·)) :
    (calls.map RequestCall.now).Pairwise (· ≤ ·) ∧ ∀ c ∈ calls, c.now ≤ call.now := by
  rw [List.map_append, List.pairwise_append] at h
  exact ⟨h.1, fun c hmem => h.2.2 _ (List.mem_map_of_mem hmem) _ (List.mem_singleton_self _)⟩

/-- After calls in the order of their times, the limiter tracks those it accepted. -/
theorem tracks_serveCalls (hsorted : (calls.map RequestCall.now).Pairwise (· ≤ ·))
    (htime : ∀ call ∈ calls, call.now ≤ time) :
    Tracks (serveCalls limit window calls).1 (serveCalls limit window calls).2 time ∧
      (serveCalls limit window calls).1.limit = limit ∧
      (serveCalls limit window calls).1.window = window := by
  induction calls using List.reverseRecOn generalizing time with
  | nil =>
      refine ⟨⟨?_, ?_, ?_, ?_⟩, rfl, rfl⟩
      · intro call hmem
        cases hmem
      · intro ip
        exact List.Pairwise.nil
      · intro ip
        exact List.Sublist.refl _
      · intro ip cutoff _
        rfl
  | append_singleton calls call ih =>
      obtain ⟨hbefore, hlast⟩ := sorted_append hsorted
      obtain ⟨htracks, hlimit, hwindow⟩ := ih hbefore hlast
      have hkept := allow_limit (serveCalls limit window calls).1 call.ip call.now
      rw [serveCalls_append]
      have htime' : call.now ≤ time :=
        htime call (List.mem_append.mpr (.inr (List.mem_singleton_self _)))
      exact ⟨(@Tracks.allow _ _ _ call.ip htracks).later htime', hkept.1.trans hlimit,
        hkept.2.trans hwindow⟩

/-- The next call is accepted when fewer than the limit are in the window before it. -/
theorem serveCalls_accepts_iff (hsorted : ((calls ++ [call]).map RequestCall.now).Pairwise (· ≤ ·)) :
    ((serveCalls limit window calls).1.allow call.ip call.now).1 = true ↔
      ((inWindow (serveCalls limit window calls).2 call.ip (call.now - window) call.now).length :
        Int) < limit := by
  obtain ⟨hbefore, hlast⟩ := sorted_append hsorted
  obtain ⟨htracks, hlimit, hwindow⟩ := @tracks_serveCalls limit window _ _ hbefore hlast
  have hiff := @allow_iff _ _ _ call.ip htracks
  rwa [hlimit, hwindow] at hiff

/-- Accepted calls whose times lie less than a window apart are at most the limit. -/
theorem length_le_limit (hsorted : (calls.map RequestCall.now).Pairwise (· ≤ ·)) (ip : String)
    (within : Int → Bool)
    (hwithin : ∀ t u, within t = true → within u = true → t ≤ u → u - window < t) :
    (((serveCalls limit window calls).2.filter fun call =>
      call.ip = ip ∧ within call.now = true).length : Int) ≤ max limit 0 := by
  induction calls using List.reverseRecOn with
  | nil => exact Int.le_max_right _ _
  | append_singleton calls call ih =>
      obtain ⟨hbefore, hlast⟩ := sorted_append hsorted
      have hiff := @serveCalls_accepts_iff limit window _ _ hsorted
      obtain ⟨htracks, -⟩ := @tracks_serveCalls limit window _ _ hbefore hlast
      rw [serveCalls_append]
      simp only [serveCall]
      split_ifs with haccepted
      · rw [List.filter_append, List.length_append]
        by_cases hin : call.ip = ip ∧ within call.now = true
        · -- The others were in the window that ends with this call.
          have hle : ((serveCalls limit window calls).2.filter fun c =>
              c.ip = ip ∧ within c.now = true).length ≤
              (inWindow (serveCalls limit window calls).2 call.ip (call.now - window)
                call.now).length := by
            rw [inWindow, ← List.countP_eq_length_filter, ← List.countP_eq_length_filter]
            refine List.countP_mono_left fun c hmem hc => ?_
            simp only [decide_eq_true_eq] at hc ⊢
            have hpast := htracks.past c hmem
            exact ⟨hc.1.trans hin.1.symm, hwithin _ _ hc.2 hin.2 hpast, hpast⟩
          have hroom := hiff.mp haccepted
          rw [List.filter_cons_of_pos (by simpa using hin), List.filter_nil, List.length_singleton]
          omega
        · rw [List.filter_cons_of_neg (by simpa using hin), List.filter_nil, List.length_nil]
          exact ih hbefore
      · exact ih hbefore

/-- **The limiter is a sliding window.** When calls come in the order of their times, each is
accepted exactly when fewer than the limit of the accepted calls before it, of the same
address, lie in the window that ends with it. So no half-open window holds more accepted
calls of an address than the limit. -/
theorem allow_sliding_window (limit window : Int) (calls : List RequestCall)
    (hsorted : (calls.map RequestCall.now).Pairwise (· ≤ ·)) :
    (∀ before call after, calls = before ++ call :: after →
      (((serveCalls limit window before).1.allow call.ip call.now).1 = true ↔
        ((inWindow (serveCalls limit window before).2 call.ip (call.now - window)
          call.now).length : Int) < limit)) ∧
      ∀ ip start,
        ((inWindow (serveCalls limit window calls).2 ip start (start + window)).length : Int) ≤
            max limit 0 ∧
          (((serveCalls limit window calls).2.filter fun call =>
            call.ip = ip ∧ start ≤ call.now ∧ call.now < start + window).length : Int) ≤
            max limit 0 := by
  constructor
  · intro before call after hcalls
    apply serveCalls_accepts_iff
    rw [hcalls, List.append_cons, List.map_append] at hsorted
    exact (List.pairwise_append.mp hsorted).1
  · intro ip start
    have hopen := @length_le_limit limit window _ hsorted ip
      (fun t => start < t ∧ t ≤ start + window) (by simp; omega)
    have hclosed := @length_le_limit limit window _ hsorted ip
      (fun t => start ≤ t ∧ t < start + window) (by simp; omega)
    simp only [decide_eq_true_eq] at hopen hclosed
    exact ⟨hopen, hclosed⟩

def addressA : String := "203.0.113.7"

/-- Three calls of one address a second apart, with a limit of two for ten seconds. -/
def threeCalls : List RequestCall :=
  [⟨addressA, 0⟩, ⟨addressA, 1000000000⟩, ⟨addressA, 2000000000⟩]

theorem allow_sliding_window_threeCalls :
    (threeCalls.map RequestCall.now).Pairwise (· ≤ ·) ∧
      ((serveCalls 2 10000000000 (threeCalls.take 2)).1.allow addressA 2000000000).1 = false := by
  have hsorted : (threeCalls.map RequestCall.now).Pairwise (· ≤ ·) := by decide
  refine ⟨hsorted, ?_⟩
  have hiff := (allow_sliding_window 2 10000000000 threeCalls hsorted).1 (threeCalls.take 2)
    ⟨addressA, 2000000000⟩ [] rfl
  rw [← Bool.not_eq_true]
  exact mt hiff.mp (by decide)

end Useful.Server
