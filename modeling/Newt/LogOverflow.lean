import Newt.AccessLogCounts
import Newt.RequestLog

/-!
# What an overflow drops

A batch whose send has failed goes back in front of what arrived meanwhile, so that
the buffer is in order, the oldest entry first.  Both log shippers then cut it to
`[:500]` and report the rest as the oldest entries; what they cut off are the newest.

`requeue_keeps_newest_iff`: at every failed send of either one, the newest 500 entries
are kept exactly if there is nothing to drop.
-/

namespace Newt.LogOverflow

open List RequestLog.Sys Runs

open AccessLog (maxBufferedSessions AccessSession ConsolidationKey)

variable {α : Type}

/-- **What the message of an overflow says**: of the buffer the newest 500 entries are
kept, in order, and the oldest ones are added to what was dropped before.  The age of an
entry is its place, as the message takes it; `run_logged` has the calls behind it. -/
def KeepsNewest (buffer kept before after : List α) : Prop :=
  kept = buffer.drop (buffer.length - maxBufferedSessions * 5) ∧
    after = before ++ buffer.take (buffer.length - maxBufferedSessions * 5)

instance [DecidableEq α] (buffer kept before after : List α) :
    Decidable (KeepsNewest buffer kept before after) :=
  instDecidableAnd

/-- What the code does: the first 500 entries are kept. -/
def KeepsFirst (buffer kept before after : List α) : Prop :=
  kept = buffer.take (maxBufferedSessions * 5) ∧
    after = before ++ buffer.drop (maxBufferedSessions * 5)

variable {buffer kept before after : List α}

section

variable (h : KeepsFirst buffer kept before after)
include h

theorem KeepsFirst.keepsNewest (hfits : buffer.length ≤ maxBufferedSessions * 5) :
    KeepsNewest buffer kept before after := by
  have hzero : buffer.length - maxBufferedSessions * 5 = 0 := Nat.sub_eq_zero_of_le hfits
  rw [KeepsNewest, hzero, drop_zero, take_zero]
  rw [KeepsFirst, take_of_length_le hfits, drop_of_length_le hfits] at h
  exact h

/-- The oldest entry is kept in an overflow. -/
theorem KeepsFirst.not_keepsNewest (hnodup : buffer.Nodup)
    (hover : maxBufferedSessions * 5 < buffer.length) : ¬ KeepsNewest buffer kept before after := by
  intro hnewest
  have hcut : buffer.take (maxBufferedSessions * 5) =
      buffer.drop (buffer.length - maxBufferedSessions * 5) := h.1.symm.trans hnewest.1
  have hfirst := congrArg (fun l => l[0]?) hcut
  have hpos : 0 < maxBufferedSessions * 5 := by decide
  rw [getElem?_take_of_lt hpos, getElem?_drop,
    getElem?_eq_getElem (by omega), getElem?_eq_getElem (by omega)] at hfirst
  have hindex := (hnodup.getElem_inj_iff).mp (Option.some.inj hfirst)
  omega

theorem KeepsFirst.keepsNewest_iff (hnodup : buffer.Nodup) :
    KeepsNewest buffer kept before after ↔ buffer.length ≤ maxBufferedSessions * 5 := by
  refine ⟨fun hnewest => ?_, h.keepsNewest⟩
  by_contra hover
  exact h.not_keepsNewest hnodup (Nat.lt_of_not_le hover) hnewest

end

/-- The end of a flush of the request log whose send has failed. -/
theorem keepsFirst_finishBatch (s : RequestLog.Sys) (i : Nat) (f : RequestLog.Flush)
    (batch : List RequestLog.Entry) :
    KeepsFirst (batch ++ s.pending) (s.finishBatch i f batch .sendError).pending s.discarded
      (s.finishBatch i f batch .sendError).discarded := by
  unfold finishBatch
  dsimp only
  split
  · exact ⟨rfl, rfl⟩
  · next hfits =>
    have hle : (batch ++ s.pending).length ≤ maxBufferedSessions * 5 := Nat.not_lt.mp hfits
    rw [KeepsFirst, take_of_length_le hle, drop_of_length_le hle, append_nil]
    exact ⟨rfl, rfl⟩

/-- A batch in flight and the buffer have no request twice. -/
theorem nodup_batch_append {s : RequestLog.Sys} (h : s.Sound) {i : Nat} {f : RequestLog.Flush}
    {batch : List RequestLog.Entry} (hi : s.flushes[i]? = some f) (hpc : f.pc = .sending batch) :
    (batch ++ s.pending).Nodup := by
  have hfirst := h.batch_first hi hpc
  have hplaces := hfirst.places.nodup_iff.mpr hfirst.distinct
  rw [flatten_cons, append_assoc, append_assoc, ← append_assoc] at hplaces
  exact perm_append_comm.nodup_iff.mp hplaces.of_append_left

/-- **Which entries a failed send keeps**: the newest 500 entries of either log are kept
exactly if the batch and what arrived meanwhile are 500 entries at most.  For the
sessions this is said of entries that differ, as those of the request log always do. -/
theorem requeue_keeps_newest_iff (events : List RequestLog.Event) (s : RequestLog.Sys)
    (t : AccessLog.Sys) (i : Nat) :
    (run RequestLog.Sys.step RequestLog.Sys.init events = some s →
      ∀ (f : RequestLog.Flush) (batch : List RequestLog.Entry),
        s.flushes[i]? = some f → f.pc = .sending batch →
        ∃ s', s.step (.finish i .sendError) = some s' ∧
          (KeepsNewest (batch ++ s.pending) s'.pending s.discarded s'.discarded ↔
            batch.length + s.pending.length ≤ 500)) ∧
    ∀ (batch : List AccessSession) (groups : List (ConsolidationKey × List AccessSession)),
      t.sending[i]? = some batch → AccessLog.Arranges batch groups →
      ∃ t', t.step (.finish i groups .sendError) = some t' ∧
        ((AccessLog.consolidateSessions batch groups).length +
            t.logger.completedSessions.length ≤ 500 →
          KeepsNewest (AccessLog.consolidateSessions batch groups ++ t.logger.completedSessions)
            t'.logger.completedSessions t.dropped t'.dropped) ∧
        ((AccessLog.consolidateSessions batch groups ++ t.logger.completedSessions).Nodup →
          (KeepsNewest (AccessLog.consolidateSessions batch groups ++ t.logger.completedSessions)
              t'.logger.completedSessions t.dropped t'.dropped ↔
            (AccessLog.consolidateSessions batch groups).length +
              t.logger.completedSessions.length ≤ 500)) := by
  refine ⟨?_, ?_⟩
  · intro hrun f batch hi hpc
    have hsound : s.Sound :=
      run_always (fun h hstep => RequestLog.Sys.Sound.step h hstep)
        sound_init hrun
    refine ⟨s.finishBatch i f batch .sendError, ?_, ?_⟩
    · simp only [step, hi, hpc]
    · rw [← length_append]
      exact (keepsFirst_finishBatch s i f batch).keepsNewest_iff (nodup_batch_append hsound hi hpc)
  · intro batch groups hi harranges
    refine ⟨t.onFinish i batch groups .sendError, ?_, ?_, ?_⟩
    · simp only [AccessLog.Sys.step, hi, Option.bind_some, if_pos harranges]
    · rw [← length_append]
      exact KeepsFirst.keepsNewest ⟨rfl, rfl⟩
    · rw [← length_append]
      exact KeepsFirst.keepsNewest_iff ⟨rfl, rfl⟩

/-- Requests that are logged one after the other. -/
def logged (logs : List RequestLog.HTTPRequestLog) : List RequestLog.Event :=
  logs.map (fun log => .logRequest log "")

theorem logRequest_appends (s : RequestLog.Sys) (log : RequestLog.HTTPRequestLog)
    (generated : String) :
    ∃ entry more, (s.logRequest log generated).pending = s.pending ++ [entry] ∧
      entry.call = s.logged.length ∧
      (s.logRequest log generated).logged.length = s.logged.length + 1 ∧
      (s.logRequest log generated).flushes = s.flushes ++ more := by
  unfold logRequest
  dsimp only
  generalize (if log.requestID = "" then { log with requestID := generated } else log) = log
  split
  · exact ⟨_, _, rfl, rfl, by simp [flush], rfl⟩
  · exact ⟨_, [], rfl, rfl, by simp, (append_nil _).symm⟩

/-- Requests go to the end of the buffer in the order of their calls, whatever flushes they
start. -/
theorem run_logged (logs : List RequestLog.HTTPRequestLog) (s : RequestLog.Sys) :
    ∃ s', run step s (logged logs) = some s' ∧
      s'.pending.map RequestLog.Entry.call =
        s.pending.map RequestLog.Entry.call ++ range' s.logged.length logs.length ∧
      ∃ more, s'.flushes = s.flushes ++ more := by
  induction logs generalizing s with
  | nil => exact ⟨s, rfl, (append_nil _).symm, [], (append_nil _).symm⟩
  | cons log logs ih =>
    obtain ⟨entry, new, hpending, hcall, hlogged, hnew⟩ := logRequest_appends s log ""
    obtain ⟨s', hrun, hcalls, more, hflushes⟩ := ih (s.logRequest log "")
    refine ⟨s', run_cons.mpr ⟨_, rfl, hrun⟩, ?_, new ++ more, ?_⟩
    · rw [hcalls, hpending, hlogged, map_append, map_singleton, hcall, append_assoc,
        length_cons, range'_succ]
      rfl
    · rw [hflushes, hnew, append_assoc]

/-- A request is logged and a flush sends it. -/
def oneInFlight : List RequestLog.Event :=
  [.setSendFunc true, .logRequest (request "/a") "", .tick, .take 0]

/-- The request of `oneInFlight`. -/
def oldest : RequestLog.Entry := ⟨0, request "/a"⟩

/-- Its flush. -/
def sendingOne : RequestLog.Flush :=
  { caller := .loop, pc := .sending [oldest] }

theorem run_oneInFlight :
    ∃ s, run step init oneInFlight = some s ∧
      s.flushes[0]? = some sendingOne ∧ s.pending = [] ∧ s.logged.length = 1 := by
  decide +kernel

/-- The request in flight, and the ones logged meanwhile, by their calls. -/
theorem run_meanwhile (logs : List RequestLog.HTTPRequestLog) :
    ∃ s, run RequestLog.Sys.step RequestLog.Sys.init (oneInFlight ++ logged logs) = some s ∧
      s.flushes[0]? = some sendingOne ∧
      s.pending.map RequestLog.Entry.call = range' 1 logs.length := by
  obtain ⟨t, hrun, hflush, hpending, hlogged⟩ := run_oneInFlight
  obtain ⟨s, hrest, hcalls, more, hflushes⟩ := run_logged logs t
  refine ⟨s, run_append hrun hrest, ?_, ?_⟩
  · rw [hflushes, List.getElem?_append_left (List.getElem?_eq_some_iff.mp hflush).1]
    exact hflush
  · rw [hcalls, hpending, hlogged]
    rfl

/-- A logger of sessions with one session in flight and another one that has ended. -/
def sessionInFlight : AccessLog.Sys :=
  { AccessLog.Sys.fresh with
    logger := { AccessLog.Sys.fresh.logger with
      completedSessions := [AccessLog.Sys.secondVisit] }
    sending := [[AccessLog.Sys.firstVisit]] }

/-- A send that fails after two more requests were logged, and one that fails after another
session has ended. -/
theorem arrivals_kept :
    (∃ s s', run RequestLog.Sys.step RequestLog.Sys.init
        (oneInFlight ++ logged [request "/b", request "/c"]) = some s ∧
      s.step (.finish 0 .sendError) = some s' ∧
      s.pending.map RequestLog.Entry.call = [1, 2] ∧
      KeepsNewest ([oldest] ++ s.pending) s'.pending s.discarded s'.discarded) ∧
    ∃ s', sessionInFlight.step (.finish 0
        [(AccessLog.Sys.firstVisit.consolidationKey, [AccessLog.Sys.firstVisit])] .sendError) =
          some s' ∧
      KeepsNewest [AccessLog.Sys.firstVisit, AccessLog.Sys.secondVisit]
        s'.logger.completedSessions [] s'.dropped := by
  obtain ⟨s, hrun, hflush, hcalls⟩ := run_meanwhile [request "/b", request "/c"]
  obtain ⟨s', hstep, hiff⟩ :=
    (requeue_keeps_newest_iff _ s sessionInFlight 0).1 hrun sendingOne _ hflush rfl
  obtain ⟨t', hstep', hfits, -⟩ :=
    (requeue_keeps_newest_iff [] s sessionInFlight 0).2 [AccessLog.Sys.firstVisit]
      [(AccessLog.Sys.firstVisit.consolidationKey, [AccessLog.Sys.firstVisit])] rfl (by decide)
  have hshort : [oldest].length + s.pending.length ≤ 500 := by
    have hlength := congrArg length hcalls
    rw [length_map, length_range'] at hlength
    rw [hlength]
    decide
  exact ⟨⟨s, s', hrun, hstep, hcalls, hiff.mpr hshort⟩, t', hstep', hfits (by decide)⟩

/-- **In an overflow the oldest entry is kept**: while a request fails to be sent, 500 more
are logged.  Of these 501 it is the one of the last call that is dropped. -/
theorem overflow_keeps_oldest :
    ∃ s s', run step init
        (oneInFlight ++ logged (replicate 500 (request "/b"))) = some s ∧
      s.step (.finish 0 .sendError) = some s' ∧
      s'.pending.map RequestLog.Entry.call = range 500 ∧
      s'.discarded.map RequestLog.Entry.call = s.discarded.map RequestLog.Entry.call ++ [500] ∧
      ¬ KeepsNewest ([oldest] ++ s.pending) s'.pending s.discarded s'.discarded := by
  obtain ⟨s, hall, hi, hcalls⟩ := run_meanwhile (replicate 500 (request "/b"))
  have hsound : s.Sound :=
    run_always (fun h hstep => RequestLog.Sys.Sound.step h hstep)
      sound_init hall
  have hbuffer : ([oldest] ++ s.pending).map RequestLog.Entry.call = range 501 := by
    rw [map_append, hcalls, length_replicate, range_eq_range', range'_succ]
    rfl
  have hover : maxBufferedSessions * 5 < ([oldest] ++ s.pending).length := by
    rw [← length_map RequestLog.Entry.call, hbuffer, length_range]
    decide
  have hfirst := keepsFirst_finishBatch s 0 sendingOne [oldest]
  refine ⟨s, s.finishBatch 0 sendingOne [oldest] .sendError, hall, ?_, ?_, ?_,
    hfirst.not_keepsNewest (nodup_batch_append hsound hi rfl) hover⟩
  · simp only [step, hi]
    rfl
  · rw [hfirst.1, map_take, hbuffer, take_range]
    rfl
  · rw [hfirst.2, map_append, map_drop, hbuffer, range_eq_range', drop_range']
    rfl

end Newt.LogOverflow
