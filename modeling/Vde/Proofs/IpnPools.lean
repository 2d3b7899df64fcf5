import Vde.IpnPool

/-!
# Frames of devices and the limit of the pool

The test of `ipn_msgpool_alloc` is the wrong way round: a device gets no message while there is room, and always one
when the pool is full. So the limit holds for the writers, who wait for room, and not for the devices.
-/

namespace Vde.Ipn

open Function Option

/-- The frames of devices were refused exactly when the pool was full, and the pool has not more messages than its size
and the writers that had passed the test at one time. -/
structure PoolRight (s : PoolRun) : Prop where
  frames : ∀ f ∈ s.frames, f.refused = true ↔ f.full = true
  limit : s.pool.nelem ≤ s.msgpoolSize + s.peak

def FrameStarves (s : PoolRun) : PoolEvent → Prop
  | .frameTest _ => s.full = true
  | .alloc c _ mem => s.devices c ≠ none → mem = false
  | _ => True

structure PoolInv (s : PoolRun) : Prop extends PoolRight s where
  lossless : s.lossless = true
  room : s.pool.nelem + s.writers.card ≤ s.msgpoolSize + s.peak
  peak : s.writers.card ≤ s.peak
  devices : ∀ c full, s.devices c = some full → full = true
  apart : ∀ c ∈ s.writers, s.devices c = none

variable {s : PoolRun} {c m : Nat}

lemma put_nelem_le (p : MsgPool) (m : Nat) : (p.put m).nelem ≤ p.nelem := by
  rw [RefPool.put]
  split
  · exact Int.sub_le_self _ (by decide)
  · exact Int.le_refl _

lemma PoolInv.same {s' : PoolRun} (h : PoolInv s) (hnelem : s'.pool.nelem ≤ s.pool.nelem)
    (hlossless : s'.lossless = s.lossless) (hsize : s'.msgpoolSize = s.msgpoolSize) (hwriters : s'.writers = s.writers)
    (hdevices : s'.devices = s.devices) (hpeak : s'.peak = s.peak) (hframes : s'.frames = s.frames) : PoolInv s' where
  frames := hframes ▸ h.frames
  limit := by
    have hlimit := h.limit
    rw [hsize, hpeak]
    omega
  lossless := hlossless ▸ h.lossless
  room := by
    have hroom := h.room
    rw [hsize, hpeak, hwriters]
    omega
  peak := by
    rw [hwriters, hpeak]
    exact h.peak
  devices := hdevices ▸ h.devices
  apart := by
    rw [hwriters, hdevices]
    exact h.apart

lemma update_devices {devices : Nat → Option Bool} {v : Option Bool}
    (hdevices : ∀ c full, devices c = some full → full = true) (hv : ∀ full, v = some full → full = true) (c : Nat) :
    ∀ c' full, update devices c v c' = some full → full = true := by
  intro c' full hc'
  by_cases hsame : c' = c
  · subst hsame
    rw [update_self] at hc'
    exact hv full hc'
  rw [update_of_ne hsame] at hc'
  exact hdevices c' full hc'

lemma update_apart {devices : Nat → Option Bool} {writers : Finset Nat} (h : ∀ c' ∈ writers, devices c' = none)
    (hc : c ∉ writers) (v : Option Bool) : ∀ c' ∈ writers, update devices c v c' = none := by
  intro c' hc'
  have hne : c' ≠ c := fun hsame => hc (hsame ▸ hc')
  rw [update_of_ne hne]
  exact h c' hc'

section

variable (h : PoolInv s)

include h

lemma PoolInv.passes : ipnMsgpoolAllocLockingPasses s.lossless s.pool.nelem s.msgpoolSize = !s.full := by
  rw [ipnMsgpoolAllocLockingPasses, h.lossless]
  rfl

lemma PoolInv.refuses : ipnMsgpoolAllocRefuses true s.lossless s.pool.nelem s.msgpoolSize = !s.full := by
  rw [ipnMsgpoolAllocRefuses, h.lossless, PoolRun.full, ← decide_not]
  exact decide_eq_decide.mpr Int.not_le.symm

lemma PoolInv.writeTest (hfree : s.Free c) : PoolInv (poolStep s (.writeTest c)) := by
  simp only [poolStep, h.passes]
  cases hfull : s.full with
  | true => exact h
  | false =>
    have hlt : s.pool.nelem < s.msgpoolSize := by
      have hnot := of_decide_eq_false hfull
      omega
    have hcard : (insert c s.writers).card = s.writers.card + 1 := Finset.card_insert_of_notMem hfree.1
    have hmax : (insert c s.writers).card ≤ max s.peak (insert c s.writers).card := Nat.le_max_right _ _
    have hpeak : s.peak ≤ max s.peak (insert c s.writers).card := Nat.le_max_left _ _
    have hlimit := h.limit
    rw [Bool.not_false, if_pos rfl]
    exact
      { frames := h.frames
        limit := by
          change s.pool.nelem ≤ (s.msgpoolSize : Int) + ((max s.peak (insert c s.writers).card : Nat) : Int)
          omega
        lossless := h.lossless
        room := by
          change s.pool.nelem + ((insert c s.writers).card : Int) ≤
            (s.msgpoolSize : Int) + ((max s.peak (insert c s.writers).card : Nat) : Int)
          omega
        peak := hmax
        devices := h.devices
        apart := by
          intro c' hc'
          rcases Finset.mem_insert.mp hc' with rfl | hc'
          · exact hfree.2.1
          · exact h.apart c' hc' }

lemma PoolInv.frameTest (hfree : s.Free c) (hfull : s.full = true) : PoolInv (poolStep s (.frameTest c)) := by
  simp only [poolStep, h.refuses, hfull, Bool.not_true, if_neg Bool.false_ne_true]
  exact
    { frames := h.frames
      limit := h.limit
      lossless := h.lossless
      room := h.room
      peak := h.peak
      devices := update_devices h.devices (fun _ hfull => (some.inj hfull).symm) c
      apart := update_apart h.apart hfree.1 _ }

lemma PoolInv.allocWriter (hc : c ∈ s.writers) (mem : Bool) : PoolInv (poolStep s (.alloc c m mem)) := by
  have hcard : (s.writers.erase c).card + 1 = s.writers.card := Finset.card_erase_add_one hc
  have hroom := h.room
  have hpeak := h.peak
  have hapart : ∀ c' ∈ s.writers.erase c, s.devices c' = none := fun c' hc' => h.apart c' (Finset.mem_of_mem_erase hc')
  simp only [poolStep, if_pos hc]
  cases mem with
  | false =>
    rw [if_neg Bool.false_ne_true]
    exact
      { frames := h.frames
        limit := h.limit
        lossless := h.lossless
        room := by
          change s.pool.nelem + ((s.writers.erase c).card : Int) ≤ (s.msgpoolSize : Int) + (s.peak : Int)
          omega
        peak := by
          change (s.writers.erase c).card ≤ s.peak
          omega
        devices := h.devices
        apart := hapart }
  | true =>
    rw [if_pos rfl]
    exact
      { frames := h.frames
        limit := by
          change s.pool.nelem + 1 ≤ (s.msgpoolSize : Int) + (s.peak : Int)
          omega
        lossless := h.lossless
        room := by
          change s.pool.nelem + 1 + ((s.writers.erase c).card : Int) ≤ (s.msgpoolSize : Int) + (s.peak : Int)
          omega
        peak := by
          change (s.writers.erase c).card ≤ s.peak
          omega
        devices := h.devices
        apart := hapart }

lemma poolStep_allocDevice {full : Bool} (hc : s.devices c = some full) (mem : Bool) :
    (poolStep s (.alloc c m mem)).frames = s.frames ++ [{ full := true, refused := !mem }] := by
  have hwriter : c ∉ s.writers := by
    intro hw
    rw [h.apart c hw] at hc
    cases hc
  have hfull := h.devices c full hc
  subst hfull
  simp only [poolStep, if_neg hwriter, hc]
  cases mem with
  | false => rfl
  | true => rfl

lemma PoolInv.allocDevice {full : Bool} (hc : s.devices c = some full) :
    PoolInv (poolStep s (.alloc c m false)) := by
  have hwriter : c ∉ s.writers := by
    intro hw
    rw [h.apart c hw] at hc
    cases hc
  have hfull := h.devices c full hc
  subst hfull
  simp only [poolStep, if_neg hwriter, hc, if_neg Bool.false_ne_true]
  exact
    { frames := by
        intro f hf
        rcases List.mem_append.mp hf with hf | hf
        · exact h.frames f hf
        rw [List.mem_singleton.mp hf]
        exact iff_of_true rfl rfl
      limit := h.limit
      lossless := h.lossless
      room := h.room
      peak := h.peak
      devices := update_devices h.devices (fun _ hfull => by cases hfull) c
      apart := update_apart h.apart hwriter _ }

lemma PoolInv.deliver : PoolInv (poolStep s (.deliver c)) := by
  rw [poolStep]
  split
  · exact h
  · exact h.same (Int.le_refl _) rfl rfl rfl rfl rfl rfl

lemma PoolInv.put : PoolInv (poolStep s (.put c)) := by
  rw [poolStep]
  split
  · exact h
  · exact h.same (put_nelem_le _ _) rfl rfl rfl rfl rfl rfl

lemma PoolInv.read : PoolInv (poolStep s (.read m)) :=
  h.same (put_nelem_le _ _) rfl rfl rfl rfl rfl rfl

end

lemma poolInv_init (msgpoolSize : Nat) : PoolInv (poolInit true msgpoolSize) where
  frames f hf := by cases hf
  limit := by
    change (0 : Int) ≤ (msgpoolSize : Int) + 0
    omega
  lossless := rfl
  room := by
    change (0 : Int) + 0 ≤ (msgpoolSize : Int) + 0
    omega
  peak := Nat.le_refl 0
  devices c full h := by cases h
  apart c hc := by cases hc

/-- For every run of writers, devices and readers on a lossless network, the frames of the devices are refused exactly
when the pool is full, and the pool keeps its limit, if and only if each frame comes when the pool is full and finds no
memory. -/
theorem pool_right_iff (msgpoolSize : Nat) (es : List PoolEvent)
    (hes : poolMachine.Along poolMachine.enabled (poolInit true msgpoolSize) es) :
    poolMachine.Always PoolRight (poolInit true msgpoolSize) es ↔
    poolMachine.Along FrameStarves (poolInit true msgpoolSize) es := by
  refine Machine.always_iff_along PoolInv (fun _ h => h.toPoolRight) ?_ ?_ (poolInv_init msgpoolSize) es hes
  · intro s e h he hok
    cases e with
    | writeTest c => exact h.writeTest he
    | frameTest c => exact h.frameTest he hok
    | alloc c m mem =>
      by_cases hc : c ∈ s.writers
      · exact h.allocWriter hc mem
      have hdevice : s.devices c ≠ none := he.1.resolve_left hc
      obtain ⟨full, hfull⟩ := ne_none_iff_exists'.mp hdevice
      have hmem : mem = false := hok hdevice
      rw [hmem]
      exact h.allocDevice hfull
    | deliver c => exact h.deliver
    | put c => exact h.put
    | read m => exact h.read
  intro s e h he hnot hright
  cases e with
  | frameTest c =>
    have hfull : s.full = false := Bool.eq_false_iff.mpr hnot
    have hframes : (poolStep s (.frameTest c)).frames = s.frames ++ [{ full := false, refused := true }] := by
      simp only [poolStep, h.refuses, hfull, Bool.not_false, if_true]
    have hmem : (⟨false, true⟩ : FrameResult) ∈ (poolStep s (.frameTest c)).frames := by
      rw [hframes]
      exact List.mem_append_right _ (List.mem_singleton.mpr rfl)
    have hfalse := (hright.frames _ hmem).mp rfl
    cases hfalse
  | alloc c m mem =>
    have hdevice : s.devices c ≠ none ∧ mem ≠ false := by
      by_contra hno
      exact hnot fun hdev => by_contra fun hmem => hno ⟨hdev, hmem⟩
    obtain ⟨full, hfull⟩ := ne_none_iff_exists'.mp hdevice.1
    have htrue : mem = true := Bool.eq_true_of_not_eq_false hdevice.2
    subst htrue
    have hmem : (⟨true, false⟩ : FrameResult) ∈ (poolStep s (.alloc c m true)).frames := by
      rw [poolStep_allocDevice h hfull]
      exact List.mem_append_right _ (List.mem_singleton.mpr rfl)
    have hfalse := (hright.frames _ hmem).mpr rfl
    cases hfalse
  | writeTest c => exact hnot trivial
  | deliver c => exact hnot trivial
  | put c => exact hnot trivial
  | read m => exact hnot trivial

/-- A frame finds the pool full and there is no memory for its message. -/
def writeAndRead : List PoolEvent :=
  [.writeTest 0, .alloc 0 7 true, .frameTest 1, .alloc 1 8 false, .deliver 0, .put 0, .read 7]

theorem pool_right_iff_writeAndRead : poolMachine.Always PoolRight (poolInit true 1) writeAndRead := by
  refine (pool_right_iff 1 writeAndRead ?_).mpr ⟨trivial, fun h => absurd rfl h, rfl, fun _ => rfl, trivial, trivial,
    trivial, trivial⟩
  refine ⟨⟨by decide, rfl, rfl⟩, ⟨.inl (by decide), by decide⟩, ⟨by decide, rfl, rfl⟩, ⟨.inr ?_, by decide⟩, ?_, ?_, ?_,
    trivial⟩
  · exact some_ne_none true
  · exact some_ne_none 7
  · exact some_ne_none 7
  · exact Multiset.mem_cons_self 7 0

def twoFramesMore : List PoolEvent :=
  [.writeTest 0, .alloc 0 7 true, .frameTest 1, .alloc 1 8 true, .frameTest 2, .alloc 2 9 true]

/-- A frame finds an empty pool and gets no message; two frames find a full pool, and it has three messages. -/
theorem full_pool_accepts :
    poolMachine.Along poolMachine.enabled (poolInit true 8) [.frameTest 1] ∧
    ¬poolMachine.Always PoolRight (poolInit true 8) [.frameTest 1] ∧
    poolMachine.Along poolMachine.enabled (poolInit true 1) twoFramesMore ∧
    ¬(poolMachine.run (poolInit true 1) twoFramesMore).pool.nelem ≤
      (1 : Int) + (poolMachine.run (poolInit true 1) twoFramesMore).peak := by
  refine ⟨⟨⟨by decide, rfl, rfl⟩, trivial⟩, fun h => ?_, ?_, by decide⟩
  · have hframe := (h.last.frames ⟨false, true⟩ List.mem_cons_self).mp rfl
    cases hframe
  refine ⟨⟨by decide, rfl, rfl⟩, ⟨.inl (by decide), by decide⟩, ⟨by decide, rfl, rfl⟩, ⟨.inr ?_, by decide⟩,
    ⟨by decide, rfl, rfl⟩, ⟨.inr ?_, by decide⟩, trivial⟩
  · exact some_ne_none true
  · exact some_ne_none true

end Vde.Ipn
