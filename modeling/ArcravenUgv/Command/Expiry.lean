import ArcravenUgv.Command.Router

/-!
# When a command is stale

`is_expired` compares unsigned 64-bit differences.  The control thread reads the
clock once for a batch of commands, so the time it passes may lie before the
time at which a command of the batch was issued.
-/

namespace ArcravenUgv.Expiry

open ArcravenUgv.Enums
open ArcravenUgv.Decimal
open ArcravenUgv.Command
open ArcravenUgv.Command.CommandRouter

variable {Handler : Type*}

/-- `process_one` answers the front command with `StaleCommand` and calls no
handler. -/
def RejectedStale (router : CommandRouter Handler) (cmd : CommandEnvelope)
    (nowNs : UInt64) : Prop :=
  ∃ handler next, router.takeFront = some (cmd, handler, next) ∧
    dispatch cmd handler nowNs = .error staleResult

/-- The lifetime is over, in numbers without bound. -/
def PastLifetime (cmd : CommandEnvelope) (nowNs : UInt64) : Prop :=
  cmd.ttlNs ≠ 0 ∧ cmd.issuedNs ≠ 0 ∧
    cmd.issuedNs.toNat + cmd.ttlNs.toNat < nowNs.toNat

/-- The unsigned difference is not taken across zero, or is small enough for the
lifetime even so. -/
def DifferenceFits (cmd : CommandEnvelope) (nowNs : UInt64) : Prop :=
  cmd.ttlNs = 0 ∨ cmd.issuedNs ≤ nowNs ∨
    2 ^ 64 + nowNs.toNat ≤ cmd.issuedNs.toNat + cmd.ttlNs.toNat

/-- Staleness is exactly the end of the lifetime, once reached it stays, and a
command issued after the clock was read is not stale. -/
structure StaleExactly (router : CommandRouter Handler) (cmd : CommandEnvelope)
    (nowNs : UInt64) : Prop where
  exact_end : RejectedStale router cmd nowNs ↔ PastLifetime cmd nowNs
  stays : RejectedStale router cmd nowNs →
    ∀ laterNs, nowNs ≤ laterNs → RejectedStale router cmd laterNs
  issued_later : nowNs < cmd.issuedNs → ¬ RejectedStale router cmd nowNs

/-! ## The unsigned difference -/

private theorem toNat_sub_of_lt {nowNs issuedNs : UInt64} (hlt : nowNs < issuedNs) :
    (nowNs - issuedNs).toNat = 2 ^ 64 + nowNs.toNat - issuedNs.toNat := by
  have hnow := nowNs.toNat_lt
  have hissued := issuedNs.toNat_lt
  have hlt' : nowNs.toNat < issuedNs.toNat := UInt64.lt_iff_toNat_lt.1 hlt
  rw [UInt64.toNat_sub]
  omega

/-- What `is_expired` computes, without words. -/
theorem isExpired_iff (cmd : CommandEnvelope) (nowNs : UInt64) :
    isExpired cmd nowNs = true ↔
      PastLifetime cmd nowNs ∨
      (cmd.ttlNs ≠ 0 ∧ nowNs < cmd.issuedNs ∧
        cmd.issuedNs.toNat + cmd.ttlNs.toNat < 2 ^ 64 + nowNs.toNat) := by
  unfold isExpired PastLifetime
  split_ifs with hnever
  · rcases hnever with httl | hissued
    · simp [httl]
    · simp [hissued]
  · obtain ⟨httl, hissued⟩ := not_or.1 hnever
    simp only [decide_eq_true_eq, UInt64.lt_iff_toNat_lt, ne_eq, httl, hissued,
      not_false_eq_true, true_and]
    by_cases hle : cmd.issuedNs ≤ nowNs
    · have hle' : cmd.issuedNs.toNat ≤ nowNs.toNat := UInt64.le_iff_toNat_le.1 hle
      rw [UInt64.toNat_sub_of_le _ _ hle]
      omega
    · have hlt : nowNs < cmd.issuedNs := UInt64.not_le.1 hle
      have hlt' : nowNs.toNat < cmd.issuedNs.toNat := UInt64.lt_iff_toNat_lt.1 hlt
      rw [toNat_sub_of_lt hlt]
      omega

theorem isExpired_iff_of_fits {cmd : CommandEnvelope} {nowNs : UInt64}
    (hfits : DifferenceFits cmd nowNs) :
    isExpired cmd nowNs = true ↔ PastLifetime cmd nowNs := by
  rw [isExpired_iff, or_iff_left]
  rintro ⟨httl, hlt, hwrap⟩
  rcases hfits with hzero | hle | hlong
  · exact httl hzero
  · exact absurd hlt (UInt64.not_lt.2 hle)
  · omega

/-- Past its lifetime a command was issued before now. -/
theorem PastLifetime.fits {cmd : CommandEnvelope} {nowNs : UInt64}
    (hpast : PastLifetime cmd nowNs) : DifferenceFits cmd nowNs := by
  refine Or.inr (Or.inl (UInt64.le_iff_toNat_le.2 ?_))
  have hend := hpast.2.2
  omega

theorem PastLifetime.mono {cmd : CommandEnvelope} {nowNs laterNs : UInt64}
    (hpast : PastLifetime cmd nowNs) (hle : nowNs ≤ laterNs) :
    PastLifetime cmd laterNs :=
  ⟨hpast.1, hpast.2.1, lt_of_lt_of_le hpast.2.2 (UInt64.le_iff_toNat_le.1 hle)⟩

/-! ## `process_one` -/

theorem rejectedStale_iff {router : CommandRouter Handler} {cmd : CommandEnvelope}
    (hfront : router.q.head? = some cmd) (nowNs : UInt64) :
    RejectedStale router cmd nowNs ↔ isExpired cmd nowNs = true := by
  obtain ⟨rest, hq⟩ := List.head?_eq_some_iff.1 hfront
  have htake : router.takeFront =
      some (cmd, (router.handlers cmd.command).join, { router with q := rest }) := by
    simp [takeFront, hq]
  constructor
  · rintro ⟨handler, next, -, herror⟩
    rcases dispatch_error_iff.1 herror with ⟨hexpired, -⟩ | ⟨-, -, hresult⟩
    · exact hexpired
    · exact absurd hresult (by decide)
  · intro hexpired
    exact ⟨_, _, htake, dispatch_error_iff.2 (Or.inl ⟨hexpired, rfl⟩)⟩

/-- The front command, with a handler or without, expires exactly at the end of
its lifetime if and only if the unsigned difference fits. -/
theorem staleExactly_iff_differenceFits {router : CommandRouter Handler}
    {cmd : CommandEnvelope} (hfront : router.q.head? = some cmd) (nowNs : UInt64) :
    StaleExactly router cmd nowNs ↔ DifferenceFits cmd nowNs := by
  have hstale := rejectedStale_iff hfront
  constructor
  · intro hexactly
    by_cases hpast : PastLifetime cmd nowNs
    · exact hpast.fits
    · have hfresh : ¬ isExpired cmd nowNs = true := by
        rwa [← hstale, hexactly.exact_end]
      rw [isExpired_iff] at hfresh
      by_contra hfits
      simp only [DifferenceFits, not_or, not_le, UInt64.not_le] at hfits
      exact hfresh (Or.inr hfits)
  · intro hfits
    have hend : RejectedStale router cmd nowNs ↔ PastLifetime cmd nowNs :=
      (hstale nowNs).trans (isExpired_iff_of_fits hfits)
    refine ⟨hend, fun hnow laterNs hle => ?_, fun hlt hnow => ?_⟩
    · exact (hstale laterNs).2 ((isExpired_iff _ _).2 (Or.inl ((hend.1 hnow).mono hle)))
    · have hpast := (hend.1 hnow).2.2
      have hlt' : nowNs.toNat < cmd.issuedNs.toNat := UInt64.lt_iff_toNat_lt.1 hlt
      omega

/-- A stop issued one nanosecond after the control thread read the clock. -/
private def lateStop : CommandEnvelope :=
  { CommandEnvelope.default with commandId := 7, issuedNs := 1001, ttlNs := 500 }

private def lateRouter : CommandRouter Unit :=
  (((create {}).registerHandler UgvCommand.stop.wire (some ())).submit lateStop).1

/-- Half a microsecond of lifetime is left, and the stop is refused as stale. -/
theorem stale_before_issue :
    lateRouter.handlers lateStop.command = some (some ()) ∧
      RejectedStale lateRouter lateStop 1000 ∧ ¬ PastLifetime lateStop 1000 ∧
      ¬ StaleExactly lateRouter lateStop 1000 := by
  have hstale : RejectedStale lateRouter lateStop 1000 :=
    (rejectedStale_iff rfl 1000).2 (by decide)
  have hpast : ¬ PastLifetime lateStop 1000 := fun hpast => absurd hpast.2.2 (by decide)
  exact ⟨rfl, hstale, hpast, fun hexactly => hpast (hexactly.exact_end.1 hstale)⟩

/-- Half a microsecond later the same stop is handled. -/
theorem staleExactly_lateStop :
    DifferenceFits lateStop 1501 ∧ StaleExactly lateRouter lateStop 1501 := by
  have hfits : DifferenceFits lateStop 1501 := Or.inr (Or.inl (by decide))
  exact ⟨hfits, (staleExactly_iff_differenceFits rfl 1501).2 hfits⟩

end ArcravenUgv.Expiry
