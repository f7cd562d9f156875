import RiscvEm.Devices.PlicRuns

/-
  How long a request stays pending in the controller.

  Key definitions include `Withdraws`.

  Key theorems include `plic_pending_until_withdrawn`.
-/

------------------------------------------------------------
-- Requests Stay Pending
------------------------------------------------------------

namespace RiscvEm

variable {cfg : PlicConfig}
variable {w w' : DevWorld (Plic cfg)}

/-
  The operations that take the request of a source away: its
  device withdraws it, a context claims it, or a context
  writes its number to the completion register.
-/
def Withdraws
    (w : DevWorld (Plic cfg))
    (id : Nat) : PlicOp → Prop
  | .setPending sourceId pending =>
      sourceId.toNat = id ∧ pending = false
  | .read addr size =>
      ∃ c, plicAccess cfg addr size = .claimComplete c ∧
        w.dev.findHighest c = id
  | .write addr size val =>
      ∃ c, plicAccess cfg addr size = .claimComplete c ∧
        (val.setWidth 32).toNat = id
  | .csrWrite _ _ _ => False

/- Updating a context changes no pending bit. -/
theorem pendingBit_updateContext
    (w : DevWorld (Plic cfg))
    (c : Fin cfg.numContexts)
    (id : Nat) :
    (Plic.updateContext w c).dev.pendingBit id =
      w.dev.pendingBit id :=
  (refreshed_updateContext w c).regs.pendingBit id

/- Updating all contexts changes no pending bit. -/
theorem pendingBit_updateAllContexts
    (w : DevWorld (Plic cfg))
    (id : Nat) :
    (Plic.updateAllContexts w).dev.pendingBit id =
      w.dev.pendingBit id :=
  (refreshed_updateAllContexts w).regs.pendingBit id

/- Only the source's own bit is set or cleared. -/
theorem pendingBit_setPending_eq
    {sourceId : BitVec 32}
    {pending : Bool}
    (hExec : Plic.setPending sourceId pending w = .ok w')
    (id : Nat) :
    w'.dev.pendingBit id = w.dev.pendingBit id ∨
      (id = sourceId.toNat ∧
        w'.dev.pendingBit id = pending) := by
  unfold Plic.setPending at hExec
  split at hExec
  · cases hExec
    exact Or.inl rfl
  · rcases bind_eq_ok.mp hExec with ⟨p, hp, hEq⟩
    cases hEq
    rw [pendingBit_updateAllContexts]
    have hBit : p.pendingBit id =
        if id = sourceId.toNat then pending
        else w.dev.pendingBit id := by
      cases pending with
      | true =>
          rw [Plic.pendingBit_setPending hp]
          by_cases hId : id = sourceId.toNat
          · simp [hId]
          · simp [hId]
      | false =>
          rw [Plic.pendingBit_clearPending hp]
          by_cases hId : id = sourceId.toNat
          · simp [hId]
          · simp [hId]
    by_cases hId : id = sourceId.toNat
    · rw [if_pos hId] at hBit
      exact Or.inr ⟨hId, hBit⟩
    · rw [if_neg hId] at hBit
      exact Or.inl hBit

/- A claim of another source leaves the bit. -/
theorem pendingBit_claim
    {c : Fin cfg.numContexts}
    {val : BitVec 64}
    (hExec : Plic.claimInterrupt c w = .ok (val, w'))
    {id : Nat}
    (hNe : w.dev.findHighest c ≠ id) :
    w'.dev.pendingBit id = w.dev.pendingBit id := by
  unfold Plic.claimInterrupt at hExec
  dsimp only at hExec
  split at hExec
  · rcases bind_eq_ok.mp hExec with ⟨p, hp, hEq⟩
    cases hEq
    rw [pendingBit_updateContext]
    refine (Plic.pendingBit_clearPending hp id).trans ?_
    rw [decide_eq_true hNe.symm, Bool.and_true]
  · cases hExec
    rfl

/- A completion of another source leaves the bit. -/
theorem pendingBit_complete
    {c : Fin cfg.numContexts}
    {done : BitVec 32}
    (hExec : Plic.completeInterrupt c done w = .ok w')
    {id : Nat}
    (hNe : done.toNat ≠ id) :
    w'.dev.pendingBit id = w.dev.pendingBit id := by
  unfold Plic.completeInterrupt at hExec
  split at hExec
  · cases hExec
    rfl
  · rcases bind_eq_ok.mp hExec with ⟨p, hp, hEq⟩
    cases hEq
    rw [pendingBit_updateContext]
    refine (Plic.pendingBit_clearPending hp id).trans ?_
    rw [decide_eq_true hNe.symm, Bool.and_true]

/- A read that withdraws nothing keeps the bit. -/
theorem pendingBit_read
    {addr val : BitVec 64}
    {size : MemorySize}
    (hRead : Plic.read addr size w = .ok (val, w'))
    {id : Nat}
    (hNot : ¬ Withdraws w id (.read addr size)) :
    w'.dev.pendingBit id = w.dev.pendingBit id := by
  unfold Plic.read at hRead
  split at hRead
  case h_5 c hReg =>
    refine pendingBit_claim hRead ?_
    exact fun hId => hNot ⟨c, hReg, hId⟩
  all_goals
    cases hRead
    rfl

/- A write that withdraws nothing keeps the bit. -/
theorem pendingBit_write
    {addr val : BitVec 64}
    {size : MemorySize}
    (hWrite : Plic.write addr size val w = .ok w')
    {id : Nat}
    (hNot : ¬ Withdraws w id (.write addr size val)) :
    w'.dev.pendingBit id = w.dev.pendingBit id := by
  unfold Plic.write at hWrite
  split at hWrite
  case h_1 =>
    cases hWrite
    exact pendingBit_updateAllContexts _ id
  case h_2 =>
    cases hWrite
    rfl
  case h_3 c word _ =>
    cases hWrite
    exact pendingBit_updateContext _ c id
  case h_4 c _ =>
    cases hWrite
    exact pendingBit_updateContext _ c id
  case h_5 c hReg =>
    refine pendingBit_complete hWrite ?_
    exact fun hId => hNot ⟨c, hReg, hId⟩
  case h_6 =>
    cases hWrite
    rfl

/- Any other operation leaves the request pending. -/
theorem PlicOp.pending_of_not_withdraws
    {op : PlicOp}
    {id : Nat}
    (hExec : op.exec w = .ok w')
    (hNot : ¬ Withdraws w id op)
    (hPending : w.dev.pendingBit id = true) :
    w'.dev.pendingBit id = true := by
  cases op with
  | setPending sourceId pending =>
      rcases pendingBit_setPending_eq hExec id with
        hSame | ⟨hId, hBit⟩
      · rw [hSame, hPending]
      · cases pending with
        | true => exact hBit
        | false => exact absurd ⟨hId.symm, rfl⟩ hNot
  | read addr size =>
      change (Plic.read addr size w).map Prod.snd = _ at hExec
      cases hRead : Plic.read addr size w with
      | error e =>
          rw [hRead] at hExec
          cases hExec
      | ok res =>
          rw [hRead] at hExec
          cases hExec
          rw [pendingBit_read hRead hNot, hPending]
  | write addr size val =>
      rw [pendingBit_write hExec hNot, hPending]
  | csrWrite hart csr val =>
      cases hExec
      exact hPending

/- A run that withdraws nothing keeps the bit. -/
theorem PlicRun.pending
    {ts : List (DevWorld (Plic cfg) × PlicOp)}
    {id : Nat}
    (hRun : PlicRun w ts w')
    (hPending : w.dev.pendingBit id = true)
    (hNot : ∀ t ∈ ts, ¬ Withdraws t.1 id t.2) :
    w'.dev.pendingBit id = true := by
  induction hRun with
  | refl => exact hPending
  | step _ hExec ih =>
      refine PlicOp.pending_of_not_withdraws hExec
        (hNot _ (List.mem_cons_self ..)) ?_
      exact ih (fun t hMem =>
        hNot t (List.mem_cons_of_mem _ hMem))

/- A source below the last one has its bit in a word. -/
theorem setPending_ok
    {id : BitVec 32}
    (hPos : id ≠ 0)
    (hLt : id.toNat < cfg.maxSources)
    (w : DevWorld (Plic cfg)) :
    ∃ w', Plic.setPending id true w = .ok w' ∧
      w'.dev.pendingBit id.toNat = true := by
  have hWord : id.toNat / 32 < cfg.words := by
    unfold PlicConfig.words
    omega
  have hSome : ∃ p, w.dev.putPending id.toNat true = .ok p := by
    unfold Plic.putPending Plic.modifyPending
    rw [if_pos rfl, dif_pos hWord]
    exact ⟨_, rfl⟩
  rcases hSome with ⟨p, hp⟩
  refine ⟨Plic.updateAllContexts { w with dev := p }, ?_, ?_⟩
  · unfold Plic.setPending
    rw [if_neg (not_or.mpr ⟨hPos, by omega⟩), hp]
    rfl
  · rw [pendingBit_updateAllContexts]
    refine (Plic.pendingBit_setPending hp _).trans ?_
    rw [decide_eq_true rfl, Bool.or_true]

/-
  Once it was raised, the request of a source is pending
  until it is withdrawn, claimed or completed, whatever else
  devices and harts do.
-/
theorem plic_pending_until_withdrawn
    (cfg : PlicConfig)
    (w : DevWorld (Plic cfg))
    (id : BitVec 32)
    (hPos : id ≠ 0)
    (hLt : id.toNat < cfg.maxSources) :
    ∃ w₁, (PlicOp.setPending id true).exec w = .ok w₁ ∧
      ∀ ts w', PlicRun w₁ ts w' →
        (∀ t ∈ ts, ¬ Withdraws t.1 id.toNat t.2) →
        w'.dev.pendingBit id.toNat = true := by
  rcases setPending_ok hPos hLt w with ⟨w₁, hExec, hPending⟩
  refine ⟨w₁, hExec, ?_⟩
  intro ts w' hRun hNot
  exact hRun.pending hPending hNot

/- Another source is enabled, completed and withdrawn. -/
def plicOthers : List PlicOp :=
  [ .setPending 11 false,
    .write (plicClaimAddr 0) .Int 11,
    .write (PLIC_START + 0x2000) .Int 0xC00,
    .setPending 11 true ]

/-
  The operations of the witness withdraw nothing of source
  10.
-/
theorem plicOthers_not_withdraws
    {w : DevWorld (Plic PlicConfig.twoHarts)}
    {op : PlicOp}
    (hOp : op ∈ plicOthers) :
    ¬ Withdraws w 10 op := by
  have hEnable : ∀ c : Fin PlicConfig.twoHarts.numContexts,
      plicAccess PlicConfig.twoHarts (PLIC_START + 0x2000)
        .Int ≠ .claimComplete c := by decide +kernel
  rcases List.mem_cons.mp hOp with rfl | hOp
  · rintro ⟨hId, -⟩
    exact absurd hId (by decide)
  rcases List.mem_cons.mp hOp with rfl | hOp
  · rintro ⟨_, -, hId⟩
    exact absurd hId (by decide)
  rcases List.mem_cons.mp hOp with rfl | hOp
  · rintro ⟨c, hReg, -⟩
    exact hEnable c hReg
  cases List.mem_singleton.mp hOp
  rintro ⟨hId, -⟩
  exact absurd hId (by decide)

/-
  The UART's request stays while another source is served.
-/
theorem plic_pending_after_request :
    ∃ w₁ ts w', (PlicOp.setPending 10 true).exec plicStart =
        .ok w₁ ∧
      PlicRun w₁ ts w' ∧ ts.map Prod.snd = plicOthers ∧
      w'.dev.pendingBit 10 = true := by
  rcases plic_pending_until_withdrawn PlicConfig.twoHarts
    plicStart 10 (by decide) (by decide) with
      ⟨w₁, hExec, hRuns⟩
  have hOk : ((PlicOp.setPending 10 true).exec
      plicStart).toOption.map (fun w =>
        (runPlicOps w plicOthers).toOption.isSome) =
      some true := by decide +kernel
  rw [hExec] at hOk
  rcases Option.isSome_iff_exists.mp (Option.some.inj hOk)
    with ⟨w', hOps⟩
  rw [toOption_eq_some] at hOps
  rcases plicRun_of_runPlicOps hOps with ⟨ts, hRun, hMap⟩
  refine ⟨w₁, ts, w', hExec, hRun, hMap, hRuns ts w' hRun ?_⟩
  intro t hMem
  refine plicOthers_not_withdraws ?_
  rw [← hMap]
  exact List.mem_map_of_mem hMem

/-
  A request that arrives between a claim and its completion
  is lost with the completion, without having been claimed.
-/
theorem plic_pending_lost_by_complete :
    ∃ ts w₁ w₂ w₃, PlicRun plicStart ts w₁ ∧
      ts.map Prod.snd =
        .read (plicClaimAddr 0) .Int ::
          .setPending 10 true :: plicSetup ∧
      (PlicOp.setPending 10 true).exec w₁ = .ok w₂ ∧
      w₂.dev.pendingBit 10 = true ∧
      (PlicOp.write (plicClaimAddr 0) .Int 10).exec w₂ =
        .ok w₃ ∧
      w₃.dev.pendingBit 10 = false := by
  have hBits : (runPlicOps plicStart
      (.write (plicClaimAddr 0) .Int 10 ::
        .setPending 10 true ::
        .read (plicClaimAddr 0) .Int ::
        .setPending 10 true :: plicSetup)).toOption.map
          (fun w => w.dev.pendingBit 10) = some false := by
    decide +kernel
  rcases Option.map_eq_some_iff.mp hBits with ⟨w₃, hOps, hLost⟩
  rw [toOption_eq_some] at hOps
  rcases bind_eq_ok.mp hOps with ⟨w₂, hOps, hWrite⟩
  rcases bind_eq_ok.mp hOps with ⟨w₁, hOps, hSet⟩
  rcases plicRun_of_runPlicOps hOps with ⟨ts, hRun, hMap⟩
  refine ⟨ts, w₁, w₂, w₃, hRun, hMap, hSet, ?_, hWrite, hLost⟩
  rcases setPending_ok (by decide : (10 : BitVec 32) ≠ 0)
    (by decide : _ < PlicConfig.twoHarts.maxSources) w₁ with
      ⟨w₂', hSet', hPending⟩
  have hEq : w₂ = w₂' :=
    Except.ok.inj (hSet.symm.trans hSet')
  rw [hEq]
  exact hPending

end RiscvEm
