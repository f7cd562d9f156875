import RiscvEm.Devices.PlicClaims

/-
  Which operations of the interrupt controller stay inside
  its vectors.

  The numbers of sources reach up to `max_sources`, and the
  words of pending bits cover the numbers below it, rounded
  up. So the last number has no bit when it is a multiple of
  the size of a word. All other accesses are checked.

  Key definitions include:
    * `PlicConfig.Beyond`
    * `PlicOp.InBounds`

  Key theorems include `plic_indexing_safe_iff`.
-/

------------------------------------------------------------
-- Conditions
------------------------------------------------------------

namespace RiscvEm

variable {cfg : PlicConfig}

/- The last source, when no word has a bit for it. -/
def PlicConfig.Beyond
    (cfg : PlicConfig)
    (id : Nat) : Prop :=
  id ≠ 0 ∧ id = cfg.maxSources ∧ 32 ∣ cfg.maxSources

/-
  The operation neither drives the source without a bit nor
  completes it.
-/
def PlicOp.InBounds
    (cfg : PlicConfig) : PlicOp → Prop
  | .setPending sourceId _ => ¬ cfg.Beyond sourceId.toNat
  | .read _ _ => True
  | .write addr size val =>
      ∀ c, plicAccess cfg addr size = .claimComplete c →
        ¬ cfg.Beyond (val.setWidth 32).toNat
  | .csrWrite _ _ _ => True

/- A number that passes the check has a word, or is beyond. -/
theorem PlicConfig.word_lt_iff
    {id : Nat}
    (hNe : id ≠ 0)
    (hLe : id ≤ cfg.maxSources) :
    id / 32 < cfg.words ↔ ¬ cfg.Beyond id := by
  unfold PlicConfig.words PlicConfig.Beyond
  constructor
  · rintro hWord ⟨-, rfl, hDvd⟩
    omega
  · intro hNot
    by_contra hWord
    exact hNot ⟨hNe, by omega, by omega⟩

theorem PlicConfig.not_beyond_of_lt
    {id : Nat}
    (hLt : cfg.maxSources < id) :
    ¬ cfg.Beyond id := by
  rintro ⟨-, hEq, -⟩
  omega

end RiscvEm

------------------------------------------------------------
-- One Operation
------------------------------------------------------------

namespace RiscvEm

namespace Plic

variable {cfg : PlicConfig}
variable {p : Plic cfg}
variable {w : DevWorld (Plic cfg)}
variable {c : Fin cfg.numContexts}

/- An access to a pending word faults beyond the last one. -/
theorem modifyPending_ok_iff
    {i : Nat}
    {f : BitVec 32 → BitVec 32} :
    (∃ p', p.modifyPending i f = .ok p') ↔ i < cfg.words := by
  constructor
  · rintro ⟨p', h⟩
    rcases modifyPending_cases h with ⟨hi, -⟩
    exact hi
  · intro hi
    unfold modifyPending
    rw [dif_pos hi]
    exact ⟨_, rfl⟩

theorem putPending_ok_iff
    {id : Nat}
    {pending : Bool} :
    (∃ p', p.putPending id pending = .ok p') ↔
      id / 32 < cfg.words := by
  unfold putPending clearPending
  split
  · exact modifyPending_ok_iff
  · exact modifyPending_ok_iff

theorem setPending_ok_iff
    {sourceId : BitVec 32}
    {pending : Bool} :
    (∃ w', setPending sourceId pending w = .ok w') ↔
      ¬ cfg.Beyond sourceId.toNat := by
  unfold setPending
  split
  case isTrue hOut =>
    refine ⟨fun _ => ?_, fun _ => ⟨w, rfl⟩⟩
    rcases hOut with rfl | hLt
    · rintro ⟨hNe, -⟩
      exact hNe rfl
    · exact PlicConfig.not_beyond_of_lt hLt
  case isFalse hIn =>
    rcases not_or.mp hIn with ⟨hNe, hLe⟩
    rw [bind_ok_iff, putPending_ok_iff]
    refine PlicConfig.word_lt_iff ?_ (by omega)
    exact fun hZero => hNe (BitVec.eq_of_toNat_eq hZero)

theorem completeInterrupt_ok_iff
    {id : BitVec 32} :
    (∃ w', completeInterrupt c id w = .ok w') ↔
      ¬ cfg.Beyond id.toNat := by
  unfold completeInterrupt
  split
  case isTrue hOut =>
    refine ⟨fun _ => ?_, fun _ => ⟨w, rfl⟩⟩
    rcases hOut with rfl | hLt
    · rintro ⟨hNe, -⟩
      exact hNe rfl
    · exact PlicConfig.not_beyond_of_lt hLt
  case isFalse hIn =>
    rcases not_or.mp hIn with ⟨hNe, hLe⟩
    unfold clearPending
    rw [bind_ok_iff, modifyPending_ok_iff]
    refine PlicConfig.word_lt_iff ?_ (by omega)
    exact fun hZero => hNe (BitVec.eq_of_toNat_eq hZero)

/- A claim clears the bit of a source that has one. -/
theorem claimInterrupt_ok
    (c : Fin cfg.numContexts)
    (w : DevWorld (Plic cfg)) :
    ∃ res, claimInterrupt c w = .ok res := by
  by_cases hZero : w.dev.findHighest c = 0
  · exact ⟨_, claimInterrupt_zero hZero⟩
  · rcases claimInterrupt_found hZero with ⟨w', hClaim, -⟩
    exact ⟨_, hClaim⟩

theorem read_ok
    (addr : BitVec 64)
    (size : MemorySize)
    (w : DevWorld (Plic cfg)) :
    ∃ res, read addr size w = .ok res := by
  unfold read
  split
  case h_5 c _ => exact claimInterrupt_ok c w
  all_goals exact ⟨_, rfl⟩

theorem write_ok_iff
    {addr val : BitVec 64}
    {size : MemorySize} :
    (∃ w', write addr size val w = .ok w') ↔
      ∀ c, plicAccess cfg addr size = .claimComplete c →
        ¬ cfg.Beyond (val.setWidth 32).toNat := by
  unfold write
  split
  case h_5 c hReg =>
    rw [completeInterrupt_ok_iff]
    exact ⟨fun h _ _ => h, fun h => h c hReg⟩
  all_goals
    rename_i hReg
    refine ⟨fun _ c hClaim => ?_, fun _ => ⟨_, rfl⟩⟩
    rw [hReg] at hClaim
    cases hClaim

end Plic

variable {cfg : PlicConfig}
variable {w : DevWorld (Plic cfg)}

/- An operation faults exactly when it is not in bounds. -/
theorem PlicOp.exec_ok_iff
    {op : PlicOp} :
    (∃ w', op.exec w = .ok w') ↔ op.InBounds cfg := by
  cases op with
  | setPending sourceId pending => exact Plic.setPending_ok_iff
  | read addr size =>
      rcases Plic.read_ok addr size w with ⟨res, hRead⟩
      refine ⟨fun _ => trivial, fun _ => ⟨res.2, ?_⟩⟩
      unfold PlicOp.exec
      dsimp only
      rw [hRead]
      rfl
  | write addr size val => exact Plic.write_ok_iff
  | csrWrite hart csr val =>
      exact ⟨fun _ => trivial, fun _ => ⟨_, rfl⟩⟩

end RiscvEm

------------------------------------------------------------
-- Runs
------------------------------------------------------------

namespace RiscvEm

/-
  From any state of the controller, a run of operations of
  devices and guests stays inside the vectors exactly when
  no operation drives or completes the source without a bit.
-/
theorem plic_indexing_safe_iff
    (cfg : PlicConfig)
    (w : DevWorld (Plic cfg))
    (ops : List PlicOp) :
    (∃ w', runPlicOps w ops = .ok w') ↔
      ∀ op ∈ ops, op.InBounds cfg := by
  induction ops with
  | nil =>
      refine ⟨fun _ op hMem => ?_, fun _ => ⟨w, rfl⟩⟩
      cases hMem
  | cons op ops ih =>
      rw [List.forall_mem_cons, ← ih]
      constructor
      · rintro ⟨w', hRun⟩
        rcases bind_eq_ok.mp hRun with ⟨w₁, hOps, hExec⟩
        exact ⟨PlicOp.exec_ok_iff.mp ⟨w', hExec⟩, w₁, hOps⟩
      · rintro ⟨hOp, w₁, hOps⟩
        rcases PlicOp.exec_ok_iff.mpr hOp with ⟨w', hExec⟩
        exact ⟨w', bind_eq_ok.mpr ⟨w₁, hOps, hExec⟩⟩

/-
  The controller of `init_auto` has 64 sources and two words
  of pending bits. A guest that completes source 64 at the
  first context writes to the third word.
-/
theorem plic_indexing_unsafe_complete :
    runPlicOps plicStart
        [.write (plicClaimAddr 0) .Int 64] =
      .error .outOfBounds := by
  rfl

end RiscvEm
