import RiscvEm.Hart.Trap

/-
  The registers `sstatus`, `sie` and `sip`, through which
  supervisor mode sees parts of `status`, `ie` and `ip`.

  Key definitions include:
    * `SupervisorViews`
    * `NothingKept`

  Key theorems include `supervisor_views_iff`.
-/

------------------------------------------------------------
-- Views
------------------------------------------------------------

namespace RiscvEm

variable {σ : Type}

/- A supervisor interrupt that machine mode has delegated. -/
def State.Delegated
    (s : State σ)
    (i : Nat) : Prop :=
  SE_MASK.getLsbD i = true ∧
    (s.hart.csrs CSR_MIDELEG).getLsbD i = true

/- `sstatus` shows and changes the bits of its mask. -/
structure SstatusView
    (s : State σ)
    (v : BitVec 64) : Prop where
  frame : ∃ status,
    s.csrWrite CSR_SSTATUS v =
        s.setHart { s.hart with status := status } ∧
      ∀ i, SSTATUS_MASK.getLsbD i = false →
        status.getLsbD i = s.hart.status.getLsbD i
  read : ∀ i, SSTATUS_MASK.getLsbD i = true →
    ((s.csrWrite CSR_SSTATUS v).csrRead
      CSR_SSTATUS).1.getLsbD i = v.getLsbD i

/- `sie` and `sip` show and change delegated bits only. -/
structure SupervisorViews
    (s : State σ)
    (v : BitVec 64) : Prop where
  sstatus : SstatusView s v
  sieWrite : ∃ ie,
    s.csrWrite CSR_SIE v =
        s.setHart { s.hart with ie := ie } ∧
      ∀ i, ¬ s.Delegated i →
        ie.getLsbD i = s.hart.ie.getLsbD i
  sipWrite : ∃ ip,
    s.csrWrite CSR_SIP v =
        s.setPins { s.pins with ip := ip } ∧
      ∀ i, ¬ s.Delegated i →
        ip.getLsbD i = s.pins.ip.getLsbD i
  sieRead : ∀ i, ¬ s.Delegated i →
    (s.csrRead CSR_SIE).1.getLsbD i = false
  sipRead : ∀ i, ¬ s.Delegated i →
    (s.csrRead CSR_SIP).1.getLsbD i = false

/-
  No supervisor interrupt that machine mode has kept is
  enabled or pending, or named by the value.
-/
def NothingKept
    (s : State σ)
    (v : BitVec 64) : Prop :=
  ∀ i, SE_MASK.getLsbD i = true →
    (s.hart.csrs CSR_MIDELEG).getLsbD i = false →
      s.hart.ie.getLsbD i = false ∧
        s.pins.ip.getLsbD i = false ∧ v.getLsbD i = false

end RiscvEm

------------------------------------------------------------
-- Masked Writes
------------------------------------------------------------

namespace RiscvEm

variable {σ : Type}

/- A write under a mask takes the bits of the mask. -/
theorem getLsbD_masked
    {w : Nat}
    (old new mask : BitVec w)
    (i : Nat) :
    ((old &&& ~~~mask) ||| (new &&& mask)).getLsbD i =
      if mask.getLsbD i then new.getLsbD i
      else old.getLsbD i := by
  rw [BitVec.getLsbD_or, BitVec.getLsbD_and,
    BitVec.getLsbD_and, BitVec.getLsbD_not]
  cases hMask : mask.getLsbD i with
  | true => simp
  | false =>
      by_cases hi : i < w
      · simp [hi]
      · have hOld := BitVec.getLsbD_of_ge old i (by omega)
        simp [hOld]

theorem SE_MASK_lt
    {i : Nat}
    (h : SE_MASK.getLsbD i = true) :
    i < 16 := by
  by_contra hGe
  rw [BitVec.getLsbD_of_ge SE_MASK i (by omega)] at h
  cases h

/- The view of `status` is right for every value. -/
theorem sstatusView
    (s : State σ)
    (v : BitVec 64) :
    SstatusView s v := by
  constructor
  · refine ⟨_, rfl, ?_⟩
    intro i hMask
    rw [getLsbD_masked, hMask]
    rfl
  · intro i hMask
    change (((s.hart.status &&& ~~~SSTATUS_MASK) |||
      (v &&& SSTATUS_MASK)) &&& SSTATUS_MASK).getLsbD i = _
    rw [BitVec.getLsbD_and, getLsbD_masked, hMask]
    simp

/- A masked write keeps the bits that are not delegated. -/
theorem masked_kept_iff
    (s : State σ)
    (old : BitVec 16)
    (v : BitVec 64) :
    (∀ i, ¬ s.Delegated i →
      ((old &&& ~~~SE_MASK) |||
        (v.setWidth 16 &&& SE_MASK)).getLsbD i =
          old.getLsbD i) ↔
    ∀ i, SE_MASK.getLsbD i = true →
      (s.hart.csrs CSR_MIDELEG).getLsbD i = false →
        v.getLsbD i = old.getLsbD i := by
  constructor
  · intro h i hMask hKept
    have hBit := h i (fun hDel => by
      rw [hDel.2] at hKept
      cases hKept)
    rw [getLsbD_masked, hMask, if_pos rfl,
      BitVec.getLsbD_setWidth] at hBit
    simpa [SE_MASK_lt hMask] using hBit
  · intro h i hNot
    rw [getLsbD_masked]
    by_cases hMask : SE_MASK.getLsbD i = true
    · have hKept : (s.hart.csrs CSR_MIDELEG).getLsbD i =
          false := by
        by_contra hTrue
        exact hNot ⟨hMask, by simpa using hTrue⟩
      rw [if_pos hMask, BitVec.getLsbD_setWidth, h i hMask hKept]
      simp [SE_MASK_lt hMask]
    · rw [if_neg hMask]

/- A masked read hides the bits that are not delegated. -/
theorem masked_hidden_iff
    (s : State σ)
    (x : BitVec 16) :
    (∀ i, ¬ s.Delegated i →
      ((x &&& SE_MASK).setWidth 64).getLsbD i = false) ↔
    ∀ i, SE_MASK.getLsbD i = true →
      (s.hart.csrs CSR_MIDELEG).getLsbD i = false →
        x.getLsbD i = false := by
  constructor
  · intro h i hMask hKept
    have hBit := h i (fun hDel => by
      rw [hDel.2] at hKept
      cases hKept)
    have hLt := SE_MASK_lt hMask
    rw [BitVec.getLsbD_setWidth, BitVec.getLsbD_and, hMask]
      at hBit
    simpa [show i < 64 by omega] using hBit
  · intro h i hNot
    rw [BitVec.getLsbD_setWidth, BitVec.getLsbD_and]
    by_cases hMask : SE_MASK.getLsbD i = true
    · have hKept : (s.hart.csrs CSR_MIDELEG).getLsbD i =
          false := by
        by_contra hTrue
        exact hNot ⟨hMask, by simpa using hTrue⟩
      rw [h i hMask hKept]
      simp
    · rw [Bool.eq_false_iff.mpr hMask]
      simp

/-
  Supervisor mode sees and changes only what is delegated
  exactly if nothing that machine mode kept is involved.
-/
theorem supervisor_views_iff
    (s : State σ)
    (v : BitVec 64) :
    SupervisorViews s v ↔ NothingKept s v := by
  constructor
  · intro h i hMask hKept
    rcases h.sieWrite with ⟨ie, hIe, hIeBits⟩
    have hEq := congrArg (fun s => s.hart.ie) hIe
    change (s.hart.ie &&& ~~~SE_MASK) |||
      (v.setWidth 16 &&& SE_MASK) = ie at hEq
    rw [← hEq] at hIeBits
    have hOld := (masked_hidden_iff s s.hart.ie).mp h.sieRead i
      hMask hKept
    have hNew := (masked_kept_iff s s.hart.ie v).mp hIeBits i
      hMask hKept
    exact ⟨hOld, (masked_hidden_iff s s.pins.ip).mp h.sipRead i
      hMask hKept, hNew.trans hOld⟩
  · intro h
    have hIe : ∀ i, SE_MASK.getLsbD i = true →
        (s.hart.csrs CSR_MIDELEG).getLsbD i = false →
          v.getLsbD i = s.hart.ie.getLsbD i := by
      intro i hMask hKept
      have hi := h i hMask hKept
      rw [hi.1, hi.2.2]
    have hIp : ∀ i, SE_MASK.getLsbD i = true →
        (s.hart.csrs CSR_MIDELEG).getLsbD i = false →
          v.getLsbD i = s.pins.ip.getLsbD i := by
      intro i hMask hKept
      have hi := h i hMask hKept
      rw [hi.2.1, hi.2.2]
    constructor
    · exact sstatusView s v
    · exact ⟨_, rfl, (masked_kept_iff s s.hart.ie v).mpr hIe⟩
    · exact ⟨_, rfl, (masked_kept_iff s s.pins.ip v).mpr hIp⟩
    · exact (masked_hidden_iff s s.hart.ie).mpr
        (fun i hMask hKept => (h i hMask hKept).1)
    · exact (masked_hidden_iff s s.pins.ip).mpr
        (fun i hMask hKept => (h i hMask hKept).2.1)

/-
  With nothing delegated, a write to `sie` enables the
  external interrupt of supervisor mode.
-/
theorem supervisor_view_not_delegated :
    ¬ (State.boot []).Delegated 9 ∧
      (State.boot []).hart.ie.getLsbD 9 = false ∧
      ((State.boot []).csrWrite CSR_SIE 0x200).hart.ie.getLsbD
        9 = true ∧
      ¬ SupervisorViews (State.boot []) 0x200 := by
  have hNot : ¬ (State.boot []).Delegated 9 := by
    rintro ⟨-, hDel⟩
    cases hDel
  refine ⟨hNot, by decide, by decide, ?_⟩
  intro h
  rcases h.sieWrite with ⟨ie, hIe, hBits⟩
  have hBit := hBits 9 hNot
  have hEq := congrArg (fun s => s.hart.ie.getLsbD 9) hIe
  change true = ie.getLsbD 9 at hEq
  rw [← hEq] at hBit
  exact absurd hBit (by decide)

end RiscvEm
