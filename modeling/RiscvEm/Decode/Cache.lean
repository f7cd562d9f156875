import RiscvEm.Decode.Decoder

/-
  The decode cache never shows: whatever was decoded before,
  and however often the cache was flushed, a decode returns
  what an uncached decode of the same word returns.

  Key definitions include:
    * `DecodeCache.Sound`
    * `DecoderCall`
    * `runCalls`

  Key theorems include `decode_cache_transparent`.
-/

------------------------------------------------------------
-- The Invariant
------------------------------------------------------------

namespace RiscvEm

variable {luts : Luts}
variable {cache : DecodeCache}

/- Every valid way holds the entry of its own word. -/
def DecodeCache.Sound
    (luts : Luts)
    (cache : DecodeCache) : Prop :=
  ∀ i k, ((cache i).ways k).valid = true →
    (cache i).ways k =
      decodeEntry luts ((cache i).ways k).pc
        ((cache i).ways k).instRaw

/- An empty cache is sound. -/
theorem DecodeCache.sound_init :
    DecodeCache.init.Sound luts := by
  intro i k hValid
  cases hValid

/- A flushed cache is sound. -/
theorem DecodeCache.sound_flush
    (cache : DecodeCache) :
    cache.flush.Sound luts := by
  intro i k hValid
  cases hValid

/- A decoded entry has its pc. -/
@[simp] theorem decodeEntry_pc
    (luts : Luts)
    (pc : BitVec 64)
    (inst : BitVec 32) :
    (decodeEntry luts pc inst).pc = pc := by
  rw [decodeEntry]
  split
  · split <;> rfl
  · rfl

/- And its word. -/
@[simp] theorem decodeEntry_instRaw
    (luts : Luts)
    (pc : BitVec 64)
    (inst : BitVec 32) :
    (decodeEntry luts pc inst).instRaw = inst := by
  rw [decodeEntry]
  split
  · split <;> rfl
  · rfl

/- A miss fills its way with the entry it returns. -/
theorem DecodeCache.Sound.decodeInstSlow
    (hSound : cache.Sound luts)
    (pc : BitVec 64)
    (inst : BitVec 32) :
    (decodeInstSlow luts cache pc inst).2.Sound luts := by
  intro i k hValid
  simp only [RiscvEm.decodeInstSlow] at hValid ⊢
  by_cases hSet : i = cacheIndex pc
  · subst hSet
    rw [Function.update_self] at hValid ⊢
    by_cases hWay : k = (cache (cacheIndex pc)).victim
    · simp only [hWay, Function.update_self, decodeEntry_pc,
        decodeEntry_instRaw]
    · simp only [Function.update_of_ne hWay] at hValid ⊢
      exact hSound _ _ hValid
  · rw [Function.update_of_ne hSet] at hValid ⊢
    exact hSound _ _ hValid

/- A way that hits is the uncached entry. -/
theorem DecodeCache.Sound.eq_of_hits
    (hSound : cache.Sound luts)
    {i : BitVec 16}
    {k : Fin 2}
    {pc : BitVec 64}
    {inst : BitVec 32}
    (hHit : ((cache i).ways k).hits pc inst = true) :
    (cache i).ways k = decodeEntry luts pc inst := by
  simp only [InstructionCache.hits, Bool.and_eq_true,
    beq_iff_eq] at hHit
  obtain ⟨⟨hValid, hPc⟩, hRaw⟩ := hHit
  have hEntry := hSound i k hValid
  rwa [hPc, hRaw] at hEntry

/- One decode: the right entry, and the invariant kept. -/
theorem DecodeCache.Sound.decodeInst
    (hSound : cache.Sound luts)
    (pc : BitVec 64)
    (inst : BitVec 32) :
    (decodeInst luts cache pc inst).1 =
        decodeEntry luts pc inst ∧
      (decodeInst luts cache pc inst).2.Sound luts := by
  rw [RiscvEm.decodeInst]
  split
  · rename_i hHit
    exact ⟨hSound.eq_of_hits hHit, hSound⟩
  · split
    · rename_i hHit
      exact ⟨hSound.eq_of_hits hHit, hSound⟩
    · exact ⟨rfl, hSound.decodeInstSlow pc inst⟩

end RiscvEm

------------------------------------------------------------
-- Sequences Of Calls
------------------------------------------------------------

namespace RiscvEm

/-
  What the harts that share a decoder do with it: decode a
  word, or execute `FENCE.I`.
-/
inductive DecoderCall where
  | decodeInst (hart : Nat) (pc : BitVec 64) (inst : BitVec 32)
  | fenceI (hart : Nat)

/- The entry that a call returns, and the cache it leaves. -/
def DecoderCall.step
    (luts : Luts)
    (cache : DecodeCache) :
    DecoderCall → Option InstructionCache × DecodeCache
  | decodeInst _ pc inst =>
      let out := RiscvEm.decodeInst luts cache pc inst
      (some out.1, out.2)
  | fenceI _ => (none, cache.flush)

/- The entry that the call returns without any cache. -/
def DecoderCall.uncached
    (luts : Luts) :
    DecoderCall → Option InstructionCache
  | decodeInst _ pc inst => some (decodeEntry luts pc inst)
  | fenceI _ => none

/- The entries that the calls return, one after another. -/
def runCalls
    (luts : Luts) :
    DecodeCache → List DecoderCall →
      List (Option InstructionCache)
  | _, [] => []
  | cache, call :: calls =>
      (call.step luts cache).1 ::
        runCalls luts (call.step luts cache).2 calls

/-
  One call answers as without a cache and keeps the cache
  sound.
-/
theorem DecoderCall.step_sound
    {luts : Luts}
    {cache : DecodeCache}
    (hSound : cache.Sound luts)
    (call : DecoderCall) :
    (call.step luts cache).1 = call.uncached luts ∧
      (call.step luts cache).2.Sound luts := by
  cases call with
  | decodeInst hart pc inst =>
      obtain ⟨hEntry, hNext⟩ := hSound.decodeInst pc inst
      exact ⟨congrArg some hEntry, hNext⟩
  | fenceI hart => exact ⟨rfl, cache.sound_flush⟩

/- A sequence of calls answers as without a cache. -/
theorem runCalls_sound
    {luts : Luts}
    (calls : List DecoderCall)
    {cache : DecodeCache}
    (hSound : cache.Sound luts) :
    runCalls luts cache calls =
      calls.map (DecoderCall.uncached luts) := by
  induction calls generalizing cache with
  | nil => rfl
  | cons call calls ih =>
      obtain ⟨hEntry, hNext⟩ := call.step_sound hSound
      rw [runCalls, List.map_cons, hEntry, ih hNext]

/-
  Every call of every sequence returns the entry of an
  uncached decode: its flag, its instruction and its operand
  data.
-/
theorem decode_cache_transparent
    (luts : Luts)
    (calls : List DecoderCall) :
    runCalls luts DecodeCache.init calls =
      calls.map (DecoderCall.uncached luts) :=
  runCalls_sound calls DecodeCache.sound_init

end RiscvEm
