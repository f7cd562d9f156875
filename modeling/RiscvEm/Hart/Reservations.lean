import RiscvEm.Hart.Eval
import RiscvEm.Hart.Privilege

/-
  Load-reserved and store-conditional in a machine of several
  harts.

  The events of a run say what a successful store-conditional
  should follow, and also which reservation each hart holds
  at every moment.

  Key definitions include:
    * `held`
    * `LrScSound`
    * `StoresEndReservations`
    * `Tracks`

  Key theorems include `lr_sc_sound`.
-/

------------------------------------------------------------
-- Events And Reservations
------------------------------------------------------------

namespace RiscvEm

/- The hart that an event is of. -/
def Event.hart : Event → Nat
  | .trap h _ _ _ => h
  | .store h _ _ _ => h
  | .lr h _ _ => h
  | .sc h _ _ _ => h

/- The `n` bytes from `addr` on and the `k` bytes from `a` on
have one in common. -/
def Overlaps
    (addr : BitVec 64)
    (n : Nat)
    (a : BitVec 64)
    (k : Nat) : Prop :=
  ∃ i j, i < n ∧ j < k ∧
    addr + BitVec.ofNat 64 i = a + BitVec.ofNat 64 j

/- `amo_check_reservation` ends a reservation at `a`. -/
def checkEnds
    (a : BitVec 64)
    (size : MemorySize)
    (va : BitVec 64) : Bool :=
  !((Reservation.mk a size true).check va).valid

/- A store of hart `h` through `MMIO::write` that ends it. -/
def storeEnds
    (h h' : Nat)
    (path : StorePath)
    (va : BitVec 64)
    (r : BitVec 64 × MemorySize) : Bool :=
  h' == h && path == .mmio && checkEnds r.1 r.2 va

/- The reservation of hart `h` after some events. -/
def held
    (h : Nat) :
    List Event → Option (BitVec 64 × MemorySize)
  | [] => none
  | .trap _ _ _ _ :: es => held h es
  | .lr h' a size :: es =>
      if h' = h then some (a, size) else held h es
  | .sc h' _ _ _ :: es =>
      if h' = h then none else held h es
  | .store h' path va _ :: es =>
      (held h es).filter (fun r => !storeEnds h h' path va r)

/-
  What may happen between the load and the store of hart `h`.
-/
def Undisturbed
    (h : Nat)
    (a : BitVec 64)
    (size : MemorySize) : Event → Prop
  | .trap _ _ _ _ => True
  | .lr h' _ _ => h' ≠ h
  | .sc h' _ _ _ => h' ≠ h
  | .store _ _ addr n => ¬ Overlaps addr n a size.bytes

/-
  Every successful store-conditional belongs to the most
  recent load-reserved of its hart, with nothing between.
-/
def LrScSound
    (es : List Event) : Prop :=
  ∀ newer older h a size,
    es = newer ++ .sc h a size true :: older →
      ∃ mid old, older = mid ++ .lr h a size :: old ∧
        ∀ e ∈ mid, Undisturbed h a size e

/-
  A store to bytes that a hart has reserved is one that ends
  this reservation.
-/
def StoresEndReservations
    (es : List Event) : Prop :=
  ∀ newer older h' path addr n,
    es = newer ++ .store h' path addr n :: older →
      ∀ h a size, held h older = some (a, size) →
        Overlaps addr n a size.bytes →
          h' = h ∧ path = .mmio ∧
            checkEnds a size addr = true

/- A successful store-conditional has its reservation. -/
def ScsHeld : List Event → Prop
  | [] => True
  | .sc h a size true :: es =>
      held h es = some (a, size) ∧ ScsHeld es
  | _ :: es => ScsHeld es

end RiscvEm

------------------------------------------------------------
-- From Reservations To The Events Before
------------------------------------------------------------

namespace RiscvEm

variable {h : Nat}
variable {a : BitVec 64}
variable {size : MemorySize}
variable {e : Event}
variable {es : List Event}

/- Stores end reservations in a shorter record as well. -/
theorem StoresEndReservations.tail
    (hStores : StoresEndReservations (e :: es)) :
    StoresEndReservations es := by
  intro newer older h' path addr n hEq
  apply hStores (e :: newer) older h' path addr n
  rw [hEq]
  rfl

/- A store while nothing is reserved ends nothing. -/
theorem StoresEndReservations.cons
    (hStores : StoresEndReservations es)
    (hNone : ∀ h, held h es = none) :
    StoresEndReservations (e :: es) := by
  intro newer older h' path addr n hEq h a size hHeld
  cases newer with
  | nil =>
      cases hEq
      rw [hNone h] at hHeld
      cases hHeld
  | cons e' newer =>
      cases hEq
      exact hStores newer older h' path addr n rfl h a size
        hHeld

/- Successful SCs were held in a shorter record as well. -/
theorem ScsHeld.tail
    (hHeld : ScsHeld (e :: es)) :
    ScsHeld es := by
  cases e with
  | sc h a size success =>
      cases success with
      | true => exact hHeld.2
      | false => exact hHeld
  | trap h cause tval interrupt => exact hHeld
  | store h path addr n => exact hHeld
  | lr h a size => exact hHeld

/- An event that does not end the reservation is harmless. -/
theorem undisturbed_of_held
    (hStores : StoresEndReservations (e :: es))
    (hHeld : held h (e :: es) = some (a, size)) :
    e = .lr h a size ∨
      (held h es = some (a, size) ∧
        Undisturbed h a size e) := by
  cases e with
  | trap h' cause tval interrupt =>
      exact Or.inr ⟨hHeld, trivial⟩
  | lr h' a' size' =>
      unfold held at hHeld
      split at hHeld
      case isTrue hEq =>
        cases hHeld
        cases hEq
        exact Or.inl rfl
      case isFalse hNe => exact Or.inr ⟨hHeld, hNe⟩
  | sc h' a' size' success =>
      unfold held at hHeld
      split at hHeld
      case isTrue => cases hHeld
      case isFalse hNe => exact Or.inr ⟨hHeld, hNe⟩
  | store h' path addr n =>
      unfold held at hHeld
      rcases Option.filter_eq_some_iff.mp hHeld with
        ⟨hOld, hNot⟩
      refine Or.inr ⟨hOld, ?_⟩
      intro hOver
      rcases hStores [] es h' path addr n rfl h a size hOld
        hOver with ⟨rfl, rfl, hEnds⟩
      unfold storeEnds at hNot
      rw [hEnds] at hNot
      simp at hNot

/-
  The reservation held is that of an LR that nothing
  disturbed since.
-/
theorem held_undisturbed
    (hStores : StoresEndReservations es)
    (hHeld : held h es = some (a, size)) :
    ∃ mid old, es = mid ++ .lr h a size :: old ∧
      ∀ e ∈ mid, Undisturbed h a size e := by
  induction es with
  | nil => cases hHeld
  | cons e es ih =>
      rcases undisturbed_of_held hStores hHeld with
        rfl | ⟨hOld, hEvent⟩
      · exact ⟨[], es, rfl, fun _ hMem => nomatch hMem⟩
      · rcases ih hStores.tail hOld with
          ⟨mid, old, hEq, hMid⟩
        refine ⟨e :: mid, old, ?_, ?_⟩
        · rw [hEq]
          rfl
        · intro e' hMem
          rcases List.mem_cons.mp hMem with rfl | hMem
          · exact hEvent
          · exact hMid e' hMem

/- SCs that were held are sound. -/
theorem lrScSound_of_held
    (hHeld : ScsHeld es)
    (hStores : StoresEndReservations es) :
    LrScSound es := by
  intro newer older h a size hEq
  induction newer generalizing es with
  | nil =>
      rw [hEq] at hHeld hStores
      exact held_undisturbed hStores.tail hHeld.1
  | cons e newer ih =>
      rw [hEq] at hHeld hStores
      exact ih hHeld.tail hStores.tail rfl

/- Events of other harts do not change a reservation. -/
theorem held_append
    {new : List Event}
    (hNew : ∀ e ∈ new, e.hart ≠ h) :
    held h (new ++ es) = held h es := by
  induction new with
  | nil => rfl
  | cons e new ih =>
      have hTail := ih (fun e' hMem =>
        hNew e' (List.mem_cons_of_mem e hMem))
      have hHead := hNew e List.mem_cons_self
      rw [List.cons_append]
      cases e with
      | trap h' cause tval interrupt => exact hTail
      | lr h' a size => exact (if_neg hHead).trans hTail
      | sc h' a size success =>
          exact (if_neg hHead).trans hTail
      | store h' path addr n =>
          have hNe : (h' == h) = false :=
            beq_eq_false_iff_ne.mpr hHead
          change (held h (new ++ es)).filter _ = held h es
          rw [hTail]
          cases held h es with
          | none => rfl
          | some r =>
              simp [storeEnds, hNe]

end RiscvEm

------------------------------------------------------------
-- The Reservation Of The Hart
------------------------------------------------------------

namespace RiscvEm

variable {σ : Type}

/- `MMIO::write` finds something at the address. -/
def WriteFinds
    (P : Platform σ)
    (addr : BitVec 64)
    (size : MemorySize) : Prop :=
  takesDram P addr size ∨
    (P.devs.find? (·.inWriteWindow addr size)).isSome = true

/-
  A valid reservation of hart `h` is the one that the events
  tell. After a store-conditional that faulted it is still
  valid, but then no write to its address succeeds.
-/
def Recorded
    (P : Platform σ)
    (h : Nat)
    (r : Reservation)
    (es : List Event) : Prop :=
  r.valid = true →
    held h es = some (r.vaddr, r.size) ∨
      ¬ WriteFinds P r.vaddr r.size

/- What the running hart keeps. -/
structure State.Recorded
    (P : Platform σ)
    (s : State σ) : Prop where
  scs : ScsHeld s.trace
  reservation :
    RiscvEm.Recorded P s.self s.hart.reservation s.trace

/-
  A part of a tick keeps the records, and all its events are
  of the running hart.
-/
structure Tracks
    (P : Platform σ)
    (s s' : State σ) : Prop where
  self : s'.self = s.self
  own : ∃ new, s'.trace = new ++ s.trace ∧
    ∀ e ∈ new, e.hart = s.self
  recorded : s.Recorded P → s'.Recorded P

variable {P : Platform σ}
variable {s s' s'' : State σ}
variable {addr val : BitVec 64}
variable {size : MemorySize}
variable {m : MemoryReturn}

/- A write succeeds exactly if it finds a place. -/
theorem State.mmioWrite_finds
    (h : s.mmioWrite P addr size val = .ok (m, s')) :
    m.isSuccess = true ↔ WriteFinds P addr size := by
  rcases State.mmioWrite_steps h with
    ⟨hDram, rfl, -⟩ |
    ⟨-, rfl, dev, world, mem, hFind, -, -⟩ |
    ⟨hDram, hFind, rfl, -⟩
  · exact iff_of_true rfl (Or.inl hDram)
  · refine iff_of_true rfl (Or.inr ?_)
    rw [hFind]
    rfl
  · refine iff_of_false Bool.false_ne_true ?_
    rintro (hTakes | hSome)
    · exact hDram hTakes
    · rw [hFind] at hSome
      cases hSome

/- A trap keeps the reservation. -/
theorem Hart.trap_reservation
    (h : Hart)
    (cause tval : BitVec 64)
    (interrupt : Bool) :
    (h.trap cause tval interrupt).reservation =
      h.reservation := by
  unfold Hart.trap
  split <;> rfl

/- A reservation that is valid after the check is the old one. -/
theorem Reservation.check_valid
    {r : Reservation}
    {va : BitVec 64}
    (h : (r.check va).valid = true) :
    r.check va = r ∧ r.valid = true ∧
      checkEnds r.vaddr r.size va = false := by
  rcases r with ⟨a, size, valid⟩
  cases valid with
  | true =>
      refine ⟨?_, rfl, ?_⟩
      · unfold Reservation.check at h ⊢
        split at h
        case isTrue => cases h
        case isFalse hNot => exact if_neg hNot
      · unfold checkEnds
        rw [h]
        rfl
  | false =>
      unfold Reservation.check at h
      simp at h

namespace Tracks

/- Tracked steps compose. -/
theorem trans
    (h : Tracks P s s')
    (h' : Tracks P s' s'') :
    Tracks P s s'' := by
  refine ⟨h'.self.trans h.self, ?_, ?_⟩
  · rcases h.own with ⟨new, hEq, hNew⟩
    rcases h'.own with ⟨new', hEq', hNew'⟩
    refine ⟨new' ++ new, ?_, ?_⟩
    · rw [hEq', hEq, List.append_assoc]
    · intro e hMem
      rcases List.mem_append.mp hMem with hMem | hMem
      · rw [hNew' e hMem, h.self]
      · exact hNew e hMem
  · intro hRec
    exact h'.recorded (h.recorded hRec)

/- Neither an event nor the reservation is new. -/
theorem of_eq
    (hSelf : s'.self = s.self)
    (hTrace : s'.trace = s.trace)
    (hRes : s'.hart.reservation = s.hart.reservation) :
    Tracks P s s' := by
  refine ⟨hSelf, ⟨[], hTrace, fun _ hMem => nomatch hMem⟩, ?_⟩
  intro hRec
  constructor
  · rw [hTrace]
    exact hRec.scs
  · rw [hSelf, hTrace, hRes]
    exact hRec.reservation

/- Writes to registers are tracked. -/
theorem of_onlyRegs
    (h : OnlyRegs s s') :
    Tracks P s s' :=
  of_eq h.self h.trace h.reservation

/- Writes to CSRs are tracked. -/
theorem of_onlyCsrs
    (h : OnlyCsrs s s') :
    Tracks P s s' :=
  of_eq h.self h.trace h.reservation

/- One event, whose records are checked by hand. -/
theorem of_cons
    {e : Event}
    (hSelf : s'.self = s.self)
    (hTrace : s'.trace = e :: s.trace)
    (hOwn : e.hart = s.self)
    (hRec : s.Recorded P → s'.Recorded P) :
    Tracks P s s' := by
  refine ⟨hSelf, ⟨[e], hTrace, ?_⟩, hRec⟩
  intro e' hMem
  rw [List.mem_singleton.mp hMem]
  exact hOwn

/- Traps are tracked. -/
theorem trap
    (s : State σ)
    (cause tval : BitVec 64)
    (interrupt : Bool) :
    Tracks P s (s.trap cause tval interrupt) := by
  refine of_cons rfl rfl rfl ?_
  intro hRec
  refine ⟨hRec.scs, ?_⟩
  have hRes : (s.trap cause tval interrupt).hart.reservation =
      s.hart.reservation :=
    Hart.trap_reservation s.hart cause tval interrupt
  rw [hRes]
  exact hRec.reservation

/- Reads are tracked. -/
theorem mmioRead
    (h : s.mmioRead P addr size = .ok (m, val, s')) :
    Tracks P s s' := by
  rw [State.mmioRead_frame h]
  exact of_eq rfl rfl rfl

/- A store through `MMIO::write` checks the reservation. -/
theorem written
    (s : State σ)
    (mem : MemoryMap)
    (world : DevWorld σ)
    (jctx : JitContext) :
    Tracks P s (s.written addr size mem world jctx) := by
  refine of_cons rfl rfl rfl ?_
  intro hRec
  refine ⟨hRec.scs, ?_⟩
  intro hValid
  change (s.hart.reservation.check addr).valid = true at hValid
  rcases Reservation.check_valid hValid with
    ⟨hSame, hOld, hEnds⟩
  change held s.self (.store s.self .mmio addr size.bytes ::
      s.trace) = some ((s.hart.reservation.check addr).vaddr,
        (s.hart.reservation.check addr).size) ∨
    ¬ WriteFinds P (s.hart.reservation.check addr).vaddr
      (s.hart.reservation.check addr).size
  rw [hSame]
  rcases hRec.reservation hOld with hHeld | hNone
  · left
    change (held s.self s.trace).filter _ = _
    rw [hHeld]
    simp [storeEnds, hEnds]
  · exact Or.inr hNone

/- Writes that succeed are recorded, others are not. -/
theorem mmioWrite
    (h : s.mmioWrite P addr size val = .ok (m, s')) :
    Tracks P s s' := by
  rcases State.mmioWrite_cases h with
    ⟨-, -, mem, jctx, -, -, rfl⟩ |
    ⟨-, dev, world, mem, -, -, rfl⟩ | ⟨-, rfl⟩
  · exact written s mem s.world jctx
  · exact written s mem world s.jctx
  · exact of_eq rfl rfl rfl

/- Zeroing a block is tracked. -/
theorem zeroBytes
    (n : Nat)
    {s : State σ}
    {addr : BitVec 64}
    (h : RiscvEm.zeroBytes P addr n s = .ok s') :
    Tracks P s s' := by
  induction n generalizing addr s with
  | zero =>
      cases h
      exact of_eq rfl rfl rfl
  | succ n ih =>
      rcases bind_eq_ok.mp h with ⟨⟨m, s₁⟩, hWrite, hRest⟩
      exact (mmioWrite hWrite).trans (ih hRest)

/- A store that does not look at the reservation. -/
theorem stored
    {path : StorePath}
    {n : Nat}
    (hSelf : s'.self = s.self)
    (hTrace : s'.trace =
      .store s.self path addr n :: s.trace)
    (hPath : path ≠ .mmio)
    (hRes : s'.hart.reservation = s.hart.reservation) :
    Tracks P s s' := by
  refine of_cons hSelf hTrace rfl ?_
  intro hRec
  constructor
  · rw [hTrace]
    exact hRec.scs
  · rw [hSelf, hTrace, hRes]
    intro hValid
    rcases hRec.reservation hValid with hHeld | hNone
    · left
      have hNe : (path == StorePath.mmio) = false :=
        beq_eq_false_iff_ne.mpr hPath
      change (held s.self s.trace).filter _ = _
      rw [hHeld]
      simp [storeEnds, hNe]
    · exact Or.inr hNone

/- Setting a CSR is tracked. -/
theorem setCsr
    (s : State σ)
    (n : BitVec 16)
    (v : BitVec 64) :
    Tracks P s (s.setCsr n v) :=
  of_onlyCsrs (.setCsr s n v)

/- Reading a CSR is tracked. -/
theorem csrReadIf
    (reads : Bool)
    (csr : BitVec 16)
    (s : State σ) :
    Tracks P s (RiscvEm.csrReadIf reads csr s) := by
  unfold RiscvEm.csrReadIf
  split
  · by_cases hDenied : State.isFloatCsr csr = true ∧
        s.hart.status.FS = 0
    · rw [State.csrRead_denied hDenied.1 hDenied.2]
      exact trap _ _ _ _
    · rw [s.csrRead_state csr hDenied]
      exact of_eq rfl rfl rfl
  · exact of_eq rfl rfl rfl

/- Writing a CSR is tracked. -/
theorem csrWriteIf
    (writes : Bool)
    (csr : BitVec 16)
    (val : BitVec 64)
    (s : State σ) :
    Tracks P s (RiscvEm.csrWriteIf writes csr val s) := by
  unfold RiscvEm.csrWriteIf
  split
  · by_cases hDenied : State.isFloatCsr csr = true ∧
        s.hart.status.FS = 0
    · rw [State.csrWrite_denied hDenied.1 hDenied.2]
      exact trap _ _ _ _
    · exact of_onlyCsrs (s.csrWrite_onlyCsrs csr val hDenied)
  · exact of_eq rfl rfl rfl

end Tracks

end RiscvEm

------------------------------------------------------------
-- Instructions
------------------------------------------------------------

namespace RiscvEm

variable {σ : Type}
variable {P : Platform σ}
variable {op : Op}
variable {d : InstructionData}
variable {s s' s₁ : State σ}
variable {out : ExecReturn}
variable {addr val : BitVec 64}
variable {size : MemorySize}
variable {m : MemoryReturn}

/- A load-reserved begins a reservation. -/
theorem Tracks.lr
    (s : State σ)
    (addr : BitVec 64)
    (size : MemorySize) :
    Tracks P s ((s.setReservation ⟨addr, size, true⟩).log
      (.lr s.self addr size)) := by
  refine .of_cons rfl rfl rfl ?_
  intro hRec
  refine ⟨hRec.scs, ?_⟩
  intro _
  exact Or.inl (if_pos rfl)

/-
  A store-conditional that succeeds has a reservation, which
  is recorded since its write finds something.
-/
theorem ScsHeld.sc
    (hRec : s.Recorded P)
    (hRes : s.hart.reservation = ⟨addr, size, true⟩)
    (hFinds : WriteFinds P addr size) :
    ScsHeld (.sc s.self addr size true :: s.trace) := by
  refine ⟨?_, hRec.scs⟩
  have hValid : s.hart.reservation.valid = true := by
    rw [hRes]
  have hHeld := hRec.reservation hValid
  rw [hRes] at hHeld
  exact hHeld.resolve_right (not_not.mpr hFinds)

/- A write keeps the SCs held. -/
theorem ScsHeld.mmioWrite
    (hHeld : ScsHeld s.trace)
    (hWrite : s.mmioWrite P addr size val = .ok (m, s')) :
    ScsHeld s'.trace := by
  rcases State.mmioWrite_cases hWrite with
    ⟨-, -, mem, jctx, -, -, rfl⟩ |
    ⟨-, dev, world, mem, -, -, rfl⟩ | ⟨-, rfl⟩
  · exact hHeld
  · exact hHeld
  · exact hHeld

/- An SC that stores ends its reservation after the store. -/
theorem Tracks.sc
    (hRes : s.hart.reservation = ⟨addr, size, true⟩)
    (hWrite : (s.log (.sc s.self addr size true)).mmioWrite P
      addr size val = .ok (m, s₁))
    (hOk : m.isSuccess = true) :
    Tracks P s s₁.clearReservation := by
  have hFinds := (State.mmioWrite_finds hWrite).mp hOk
  have hTracks := Tracks.mmioWrite hWrite
  rcases hTracks.own with ⟨new, hTrace, hNew⟩
  refine ⟨hTracks.self, ?_, ?_⟩
  · refine ⟨new ++ [.sc s.self addr size true], ?_, ?_⟩
    · rw [List.append_assoc]
      exact hTrace
    · intro e hMem
      rcases List.mem_append.mp hMem with hMem | hMem
      · exact hNew e hMem
      · rw [List.mem_singleton.mp hMem]
        rfl
  · intro hRec
    constructor
    · have hScs := ScsHeld.mmioWrite
        (ScsHeld.sc hRec hRes hFinds) hWrite
      exact hScs
    · intro hValid
      cases hValid

/- The reservation stays, and no write to it succeeds. -/
theorem Tracks.scFault
    (hRes : s.hart.reservation = ⟨addr, size, true⟩)
    (hWrite : (s.log (.sc s.self addr size true)).mmioWrite P
      addr size val = .ok (m, s₁))
    (hFail : m.isSuccess = false) :
    Tracks P s (s.log (.sc s.self addr size false)) := by
  refine .of_cons rfl rfl rfl ?_
  intro hRec
  refine ⟨hRec.scs, ?_⟩
  intro _
  right
  change ¬ WriteFinds P s.hart.reservation.vaddr
    s.hart.reservation.size
  rw [hRes]
  intro hFinds
  have hOk := (State.mmioWrite_finds hWrite).mpr hFinds
  rw [hFail] at hOk
  cases hOk

/- An SC that fails ends its reservation, too. -/
theorem Tracks.scFail
    (s : State σ)
    (addr : BitVec 64)
    (size : MemorySize) :
    Tracks P s (s.clearReservation.log
      (.sc s.self addr size false)) := by
  refine .of_cons rfl rfl rfl ?_
  intro hRec
  refine ⟨hRec.scs, ?_⟩
  intro hValid
  cases hValid

/- Every effect of an instruction is tracked. -/
theorem Effect.tracks
    (h : Effect P op d s out s') :
    Tracks P s s' := by
  cases h with
  | regs _ hRegs => exact .of_onlyRegs hRegs
  | fault _ => exact .of_eq rfl rfl rfl
  | load hRead _ _ hRegs =>
      exact (Tracks.mmioRead hRead).trans (.of_onlyRegs hRegs)
  | store hWrite _ _ hRegs =>
      exact (Tracks.mmioWrite hWrite).trans
        (.of_onlyRegs hRegs)
  | amo hRead _ hWrite _ _ hRegs =>
      exact ((Tracks.mmioRead hRead).trans
        (.mmioWrite hWrite)).trans (.of_onlyRegs hRegs)
  | amoFault _ hRead _ _ _ _ => exact .mmioRead hRead
  | lr hRead _ _ hRegs =>
      exact ((Tracks.mmioRead hRead).trans
        (.lr _ _ _)).trans (.of_onlyRegs hRegs)
  | sc hRes hWrite hOk _ hRegs =>
      exact (Tracks.sc hRes hWrite hOk).trans
        (.of_onlyRegs hRegs)
  | scFault hRes hWrite hFail _ =>
      exact .scFault hRes hWrite hFail
  | scFail _ hRegs =>
      exact (Tracks.scFail _ _ _).trans (.of_onlyRegs hRegs)
  | csr reads writes val _ _ _ _ _ hRead hWrite =>
      exact (((Tracks.csrReadIf reads d.csr s).trans
        (.of_onlyRegs hRead)).trans
        (.csrWriteIf writes d.csr val _)).trans
        (.of_onlyRegs hWrite)
  | mret _ _ => exact .of_eq rfl rfl rfl
  | sret _ _ => exact .of_eq rfl rfl rfl
  | wfi _ _ _ => exact .of_eq rfl rfl rfl
  | fenceI _ => exact .of_eq rfl rfl rfl
  | cboRam _ _ _ => exact .stored rfl rfl (by decide) rfl
  | cboDevice hZero _ => exact .zeroBytes 64 hZero

end RiscvEm

------------------------------------------------------------
-- Ticks
------------------------------------------------------------

namespace RiscvEm

variable {σ : Type}
variable {P : Platform σ}
variable {s s' : State σ}

/- Compiled stores do not look at the reservation. -/
theorem held_compiled
    {h self : Nat}
    {new es : List Event}
    (hNew : ∀ e ∈ new, ∃ addr n,
      e = .store self .compiled addr n) :
    held h (new ++ es) = held h es := by
  induction new with
  | nil => rfl
  | cons e new ih =>
      have hTail := ih (fun e' hMem =>
        hNew e' (List.mem_cons_of_mem e hMem))
      rcases hNew e List.mem_cons_self with ⟨addr, n, rfl⟩
      change (held h (new ++ es)).filter _ = held h es
      rw [hTail]
      cases held h es with
      | none => rfl
      | some r => simp [storeEnds]

/- Stores of compiled blocks are no SCs. -/
theorem ScsHeld.compiled
    {self : Nat}
    {new es : List Event}
    (hHeld : ScsHeld es)
    (hNew : ∀ e ∈ new, ∃ addr n,
      e = .store self .compiled addr n) :
    ScsHeld (new ++ es) := by
  induction new with
  | nil => exact hHeld
  | cons e new ih =>
      rcases hNew e List.mem_cons_self with ⟨addr, n, rfl⟩
      exact ih (fun e' hMem =>
        hNew e' (List.mem_cons_of_mem _ hMem))

/- Stores of compiled blocks are recorded. -/
theorem Tracks.compiled
    (h : OnlyCompiled s s') :
    Tracks P s s' := by
  rcases h.trace with ⟨new, hTrace, hNew⟩
  refine ⟨h.self, ⟨new, hTrace, ?_⟩, ?_⟩
  · intro e hMem
    rcases hNew e hMem with ⟨addr, n, rfl⟩
    rfl
  · intro hRec
    have hRes : s'.hart.reservation = s.hart.reservation := by
      rw [h.hart]
    constructor
    · rw [hTrace]
      exact hRec.scs.compiled hNew
    · rw [h.self, hTrace, hRes]
      intro hValid
      rw [held_compiled hNew]
      exact hRec.reservation hValid

/- The part before the dispatch is tracked. -/
theorem State.preTick_tracks
    (s : State σ) :
    Tracks P s s.preTick := by
  have hZero : Tracks P s (s.setGpr 0 0) := .of_eq rfl rfl rfl
  have hCount := hZero.trans (.setCsr _ CSR_MCYCLE
    ((s.setGpr 0 0).csr CSR_MCYCLE + 1))
  unfold preTick
  dsimp only
  split
  · refine hCount.trans ?_
    unfold checkInts
    split
    · exact .trap _ _ _ _
    · exact .of_eq rfl rfl rfl
  · exact hCount

/- A fetch is tracked. -/
theorem State.afterFetch_tracks
    (s : State σ)
    (m : MemoryReturn) :
    Tracks P s (s.afterFetch m) := by
  unfold afterFetch
  split
  · exact .of_eq rfl rfl rfl
  · exact .trap _ _ _ _

/- The body of an entry is tracked. -/
theorem State.runEntry_tracks
    {entry : InstructionCache}
    {w : BitVec 32}
    {pc : BitVec 64}
    (h : s.runEntry P entry w pc = .ok s') :
    Tracks P s s' := by
  have hTrap : ∀ (s₁ : State σ) cause tval,
      Tracks P s₁ (s₁.stopAndTrap cause tval) := by
    intro s₁ cause tval
    have hStop : Tracks P s₁
        (s₁.setJctx s₁.jctx.stopBlock) := .of_eq rfl rfl rfl
    exact hStop.trans (.trap _ cause tval false)
  rcases runEntry_cases h with
    ⟨-, rfl⟩ | ⟨i, out, s₁, -, hExec, hEnd⟩
  · exact hTrap _ _ _
  · have hEffect := (Op.exec_effect _ hExec).tracks
    rcases hEnd with ⟨-, rfl⟩ | ⟨-, j, -, rfl⟩
    · exact hEffect.trans (hTrap _ _ _)
    · have hCount := hEffect.trans (.setCsr s₁ CSR_MINSTRET
        (s₁.csr CSR_MINSTRET + 1))
      exact hCount.trans (.of_eq rfl rfl rfl)

/- An interpreted tick is tracked. -/
theorem State.interpret_tracks
    (h : s.interpret P = .ok s') :
    Tracks P s s' := by
  rcases interpret_cases h with ⟨m, val, s₁, hRead, hRun⟩
  have hDecode : Tracks P (s₁.afterFetch m)
      ((s₁.afterFetch m).decode (val.setWidth 32)).2 :=
    .of_eq rfl rfl rfl
  exact (((Tracks.mmioRead hRead).trans
    (s₁.afterFetch_tracks m)).trans hDecode).trans
    (runEntry_tracks hRun)

/- Calling a block is tracked. -/
theorem State.callBlock_tracks
    {f : JitFunction}
    (h : s.callBlock P f = .ok s') :
    Tracks P s s' := by
  rcases bind_eq_ok.mp h with ⟨s₁, hRun, hEq⟩
  have hStart : Tracks P s
      (s.setHart { s.hart with exitPc := 0 }) :=
    .of_eq rfl rfl rfl
  have hBlock := hStart.trans
    (Tracks.compiled (runBlock_onlyCompiled hRun))
  cases hEq
  refine hBlock.trans ?_
  split
  · exact .of_eq rfl rfl rfl
  · exact .of_eq rfl rfl rfl

/- A tick is tracked. -/
theorem State.tick_tracks
    (h : s.tick P = .ok s') :
    Tracks P s s' := by
  have hPre := s.preTick_tracks (P := P)
  rcases tick_cases h with
    ⟨b, rfl⟩ | ⟨f, -, -, hCall⟩ | ⟨f, -, rfl⟩ |
    ⟨hInt, hTick⟩
  · exact hPre.trans (.of_eq rfl rfl rfl)
  · exact hPre.trans (callBlock_tracks hCall)
  · exact hPre.trans (.of_eq rfl rfl rfl)
  · have hStart : Tracks P s.preTick s.atFetch :=
      .of_eq rfl rfl rfl
    exact (hPre.trans hStart).trans (interpret_tracks hTick)

end RiscvEm

------------------------------------------------------------
-- Runs
------------------------------------------------------------

namespace RiscvEm

variable {σ : Type}
variable {P : Platform σ}
variable {m m' : Machine σ}
variable {ts : List (State σ × State σ)}

/- The reservations of all harts are recorded. -/
structure Machine.Recorded
    (P : Platform σ)
    (m : Machine σ) : Prop where
  scs : ScsHeld m.trace
  reservations : ∀ i c, m.harts[i]? = some c →
    RiscvEm.Recorded P i c.hart.reservation m.trace

/- A step of any hart keeps the record. -/
theorem Machine.Step.recorded
    {t : Option (State σ × State σ)}
    (h : Machine.Step P m t m')
    (hRec : m.Recorded P) :
    m'.Recorded P := by
  cases h with
  | device world => exact ⟨hRec.scs, hRec.reservations⟩
  | @tick i c s hCore hTick =>
      have hTracks := State.tick_tracks hTick
      have hDone := hTracks.recorded
        ⟨hRec.scs, hRec.reservations i c hCore⟩
      refine ⟨hDone.scs, ?_⟩
      intro j c' hGet
      by_cases hEq : i = j
      · have hLt := (List.getElem?_eq_some_iff.mp hCore).1
        have hSelf : s.self = i := hTracks.self
        cases hEq
        rw [show (m.put i s).harts[i]? = some ⟨s.hart, s.jctx⟩
          from List.getElem?_set_self hLt] at hGet
        cases hGet
        rw [← hSelf]
        exact hDone.reservation
      · rw [show (m.put i s).harts[j]? = m.harts[j]?
          from List.getElem?_set_ne hEq] at hGet
        rcases hTracks.own with ⟨new, hTrace, hNew⟩
        intro hValid
        change held j s.trace = _ ∨ _
        have hTrace' : s.trace = new ++ m.trace := hTrace
        rw [hTrace', held_append]
        · exact hRec.reservations j c' hGet hValid
        · intro e hMem
          rw [hNew e hMem]
          exact hEq

/- Every run keeps the record. -/
theorem Machine.Run.recorded
    (h : Machine.Run P m ts m')
    (hRec : m.Recorded P) :
    m'.Recorded P := by
  induction h with
  | start => exact hRec
  | step _ hStep ih => exact hStep.recorded ih

/-
  In every run from a machine without reservations in which
  each store to reserved bytes ends the reservation, a
  store-conditional that succeeds follows its load-reserved
  with no store to these bytes between.
-/
theorem lr_sc_sound
    (hRun : Machine.Run P m ts m')
    (hTrace : m.trace = [])
    (hValid : ∀ c ∈ m.harts,
      c.hart.reservation.valid = false)
    (hStores : StoresEndReservations m'.trace) :
    LrScSound m'.trace := by
  have hStart : m.Recorded P := by
    constructor
    · rw [hTrace]
      trivial
    · intro i c hCore hTrue
      rw [hValid c (List.mem_of_getElem? hCore)] at hTrue
      cases hTrue
  exact lrScSound_of_held (hRun.recorded hStart).scs hStores

/-
  Hart 0 reserves a word and stores to it conditionally;
  hart 1 stores to the same word.
-/
def lockProgram : List (BitVec 32) :=
  [0x00000297, -- auipc x5, 0
   0x00051663, -- bne x10, x0, 12
   0x1002A32F, -- lr.w x6, (x5)
   0x1802A3AF, -- sc.w x7, x0, (x5)
   0x0002A023] -- sw x0, 0(x5)

/- Two harts that share the program. -/
def lockMachine : Machine Unit :=
  { (Machine.single (State.boot lockProgram)) with
    harts := [0, 1].map (fun id =>
      { hart := (Hart.zero id).init 0x800E0000 0x80000000
        jctx := .init Platform.bare.memsize }) }

/- The other hart stores after the conditional store. -/
theorem lockMachine_stores_after :
    (lockMachine.evalSchedule Platform.bare
      [0, 0, 0, 1, 1, 0, 1]).toOption.map (·.trace) =
        some [.store 1 .mmio 0x80000000 4,
          .store 0 .mmio 0x80000000 4,
          .sc 0 0x80000000 .Int true,
          .lr 0 0x80000000 .Int] := by
  decide +kernel

/- The other hart stores between the two. -/
theorem lockMachine_stores_between :
    (lockMachine.evalSchedule Platform.bare
      [0, 0, 0, 1, 1, 1, 0]).toOption.map (·.trace) =
        some [.store 0 .mmio 0x80000000 4,
          .sc 0 0x80000000 .Int true,
          .store 1 .mmio 0x80000000 4,
          .lr 0 0x80000000 .Int] := by
  decide +kernel

/- In that order the conditional store succeeds soundly. -/
theorem lr_sc_sound_in_order :
    ∃ ts m', lockMachine.Run Platform.bare ts m' ∧
      .sc 0 0x80000000 .Int true ∈ m'.trace ∧
      LrScSound m'.trace := by
  rcases Option.map_eq_some_iff.mp lockMachine_stores_after with
    ⟨m', hRun, hTrace⟩
  rcases run_of_evalSchedule _ .start
    (toOption_eq_some.mp hRun) with ⟨ts, hRun⟩
  have hLr : ∀ h : Nat, h ≠ 0 →
      held h [.lr 0 0x80000000 .Int] = none := by
    intro h hNe
    exact if_neg (Ne.symm hNe)
  have hSc : ∀ h : Nat, held h [.sc 0 0x80000000 .Int true,
      .lr 0 0x80000000 .Int] = none := by
    intro h
    by_cases hZero : 0 = h
    · exact if_pos hZero
    · exact (if_neg hZero).trans (hLr h (Ne.symm hZero))
  refine ⟨ts, m', hRun, ?_, ?_⟩
  · rw [hTrace]
    simp
  · refine lr_sc_sound hRun rfl (by decide) ?_
    rw [hTrace]
    refine .cons (.cons ?_ hSc) ?_
    · intro newer older h' path addr n hEq
      rcases newer with _ | ⟨e₁, _ | ⟨e₂, newer⟩⟩ <;> simp at hEq
    · intro h
      change (held h _).filter _ = none
      rw [hSc h]
      rfl

/-
  In the other order the store of the other hart comes
  between, and the conditional store succeeds all the same.
-/
theorem lr_sc_unsound_between :
    ∃ ts m', lockMachine.Run Platform.bare ts m' ∧
      ¬ LrScSound m'.trace := by
  rcases Option.map_eq_some_iff.mp lockMachine_stores_between
    with ⟨m', hRun, hTrace⟩
  rcases run_of_evalSchedule _ .start
    (toOption_eq_some.mp hRun) with ⟨ts, hRun⟩
  refine ⟨ts, m', hRun, ?_⟩
  rw [hTrace]
  intro hSound
  rcases hSound [_] _ 0 0x80000000 .Int rfl with
    ⟨mid, old, hEq, hMid⟩
  rcases mid with _ | ⟨e, mid⟩
  · cases hEq
  · have hHead := hMid e List.mem_cons_self
    rw [← (List.cons.inj hEq).1] at hHead
    exact hHead ⟨0, 0, by decide, by decide, rfl⟩

end RiscvEm
