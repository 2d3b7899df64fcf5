import Mathlib.Algebra.Ring.Nat
import Mathlib.Data.Set.Finite.Basic
import Vde.IpnHash
import Vde.Lib.Machine

/-!
# The kernel table and the map it stands for

The map has for each key the port and the time until which it is valid, as numbers that do not wrap. The
list of all elements is in the order of these times, since the timeout is the same for all of them and
the clock does not go back; so the timer may stop at the first element that is still valid.
-/

namespace Vde.Ipn

open List Function Option

/-! ## The map -/

/-- What the table stands for: a port and the time when it expires. -/
abbrev KernelMap := HashKey → Option (Int × Nat)

namespace KernelMap

def add (key : HashKey) (port : Int) (expiry : Nat) (m : KernelMap) : KernelMap :=
  update m key (some (port, expiry))

def flushPort (port : Int) (m : KernelMap) : KernelMap := fun key => (m key).filter fun v => v.1 != port

def collect (now : Nat) (m : KernelMap) : KernelMap := fun key => (m key).filter fun v => decide (now ≤ v.2)

end KernelMap

structure HashRep (h : IpnHash) (m : KernelMap) : Prop where
  nodup : h.lrulist.Nodup
  mem : ∀ a, a ∈ h.lrulist ↔ (h.elems a).isSome
  chainNodup : ∀ i, (h.hashtable i).Nodup
  chain : ∀ i a, a ∈ h.hashtable i ↔ ∃ e, h.elems a = some e ∧ h.chain e.key = i
  unique : ∀ a b e f, h.elems a = some e → h.elems b = some f → e.key = f.key → a = b
  stored : ∀ a e, h.elems a = some e →
    ∃ expiry, m e.key = some (e.port, expiry) ∧ e.expiretime = BitVec.ofNat 64 expiry
  covered : ∀ key, m key ≠ none → ∃ a e, h.elems a = some e ∧ e.key = key
  sorted : h.lrulist.Pairwise fun a b => ∀ e f v w, h.elems a = some e → h.elems b = some f →
    m e.key = some v → m f.key = some w → v.2 ≤ w.2

/-! ## Elements that go -/

variable {a : Nat} {e : IpnHashElem}

namespace IpnHash

def restrict (p : Nat → Bool) (h : IpnHash) : IpnHash :=
  { h with
    elems := fun a => if p a then h.elems a else none
    lrulist := h.lrulist.filter p
    hashtable := fun i => (h.hashtable i).filter p }

lemma restrict_elems {p : Nat → Bool} {h : IpnHash} :
    (h.restrict p).elems a = some e ↔ p a = true ∧ h.elems a = some e := by
  simp only [restrict]
  split_ifs with hp
  · simp [hp]
  · simp [hp]

lemma restrict_true (h : IpnHash) : h.restrict (fun _ => true) = h := by
  simp [restrict]

lemma restrict_restrict (p q : Nat → Bool) (h : IpnHash) :
    (h.restrict p).restrict q = h.restrict fun a => p a && q a := by
  simp only [restrict, IpnHash.mk.injEq, true_and, and_true]
  refine ⟨?_, ?_, ?_⟩
  · funext a
    by_cases hp : p a = true
    · simp [hp]
    · simp [hp]
  · funext i
    rw [List.filter_filter]
    simp only [Bool.and_comm]
  rw [List.filter_filter]
  simp only [Bool.and_comm]

lemma del_eq {h : IpnHash} (hnodup : h.lrulist.Nodup) (hchain : ∀ i, (h.hashtable i).Nodup) (a : Nat) :
    h.del a = h.restrict fun b => b != a := by
  simp only [del, unlink, restrict, IpnHash.mk.injEq, true_and, and_true]
  refine ⟨?_, ?_, ?_⟩
  · funext b
    by_cases hb : b = a
    · simp [hb]
    · simp [hb]
  · funext i
    exact (hchain i).erase_eq_filter a
  · exact hnodup.erase_eq_filter a

end IpnHash

variable {t now : Nat} {key : HashKey} {port : Int}

section

variable {h : IpnHash} {m : KernelMap}

lemma HashRep.restrict (hr : HashRep h m) {p : Nat → Bool} {m' : KernelMap}
    (hkept : ∀ a e, h.elems a = some e → m' e.key = if p a then m e.key else none)
    (hnone : ∀ key, m key = none → m' key = none) : HashRep (h.restrict p) m' where
  nodup := hr.nodup.filter p
  mem a := by
    simp only [IpnHash.restrict, mem_filter, hr.mem a]
    split_ifs with hp
    · simp [hp]
    · simp [hp]
  chainNodup i := (hr.chainNodup i).filter p
  chain i a := by
    have hmem : a ∈ (h.restrict p).hashtable i ↔ a ∈ h.hashtable i ∧ p a = true := mem_filter
    rw [hmem, hr.chain i a]
    simp only [IpnHash.restrict_elems]
    constructor
    · rintro ⟨⟨e, he, hi⟩, hp⟩
      exact ⟨e, ⟨hp, he⟩, hi⟩
    rintro ⟨e, ⟨hp, he⟩, hi⟩
    exact ⟨⟨e, he, hi⟩, hp⟩
  unique a b e f ha hb := hr.unique a b e f (IpnHash.restrict_elems.mp ha).2 (IpnHash.restrict_elems.mp hb).2
  stored a e ha := by
    obtain ⟨hp, he⟩ := IpnHash.restrict_elems.mp ha
    rw [hkept a e he, if_pos hp]
    exact hr.stored a e he
  covered key hkey := by
    have hm : m key ≠ none := fun hm => hkey (hnone key hm)
    obtain ⟨a, e, he, heq⟩ := hr.covered key hm
    have hp : p a = true := by
      by_contra hp
      apply hkey
      rw [← heq, hkept a e he, if_neg hp]
    exact ⟨a, e, IpnHash.restrict_elems.mpr ⟨hp, he⟩, heq⟩
  sorted := by
    apply (hr.sorted.filter p).imp
    intro a b hab e f v w ha hb hv hw
    obtain ⟨hpa, he⟩ := IpnHash.restrict_elems.mp ha
    obtain ⟨hpb, hf⟩ := IpnHash.restrict_elems.mp hb
    rw [hkept a e he, if_pos hpa] at hv
    rw [hkept b f hf, if_pos hpb] at hw
    exact hab e f v w he hf hv hw

lemma flushLoop_eq (hnodup : h.lrulist.Nodup) (hchain : ∀ i, (h.hashtable i).Nodup) (q : IpnHashElem → Bool)
    (l : List Nat) (hl : l.Nodup) (p : Nat → Bool) (hp : ∀ a ∈ l, p a = true) :
    flushLoop q l (h.restrict p) = h.restrict fun a => p a && !(decide (a ∈ l) && (h.elems a).any q) := by
  induction l generalizing p with
  | nil => simp [flushLoop]
  | cons a rest ih =>
    obtain ⟨hrest, hnodup'⟩ := nodup_cons.mp hl
    have hkept : (h.restrict p).elems a = h.elems a := by simp [IpnHash.restrict, hp a]
    rw [flushLoop, hkept]
    cases he : h.elems a with
    | none =>
      dsimp only
      rw [ih hnodup' p (fun b hb => hp b (mem_cons_of_mem a hb))]
      congr 1
      funext b
      by_cases hb : b = a
      · simp [hb, he]
      · simp [hb]
    | some e =>
      dsimp only
      by_cases hq : q e = true
      · rw [if_pos hq, IpnHash.del_eq (hnodup.filter p) (fun i => (hchain i).filter p), IpnHash.restrict_restrict,
          ih hnodup']
        · congr 1
          funext b
          by_cases hb : b = a
          · simp [hb, he, hq]
          have hne : (b != a) = true := by simpa using hb
          simp [hb, hne]
        intro b hb
        have hne : b ≠ a := fun heq => hrest (heq ▸ hb)
        simp [hp b (mem_cons_of_mem a hb), hne]
      rw [if_neg hq, ih hnodup' p (fun b hb => hp b (mem_cons_of_mem a hb))]
      congr 1
      funext b
      by_cases hb : b = a
      · simp [hb, he, hq]
      · simp [hb]

lemma HashRep.flush (hr : HashRep h m) {q : IpnHashElem → Bool} {m' : KernelMap}
    (hm : ∀ a e, h.elems a = some e → m' e.key = if q e then none else m e.key)
    (hnone : ∀ key, m key = none → m' key = none) : HashRep (flushLoop q h.lrulist h) m' := by
  have heq := flushLoop_eq hr.nodup hr.chainNodup q h.lrulist hr.nodup (fun _ => true) (fun _ _ => rfl)
  rw [IpnHash.restrict_true] at heq
  rw [heq]
  apply hr.restrict _ hnone
  intro a e he
  have hmem : a ∈ h.lrulist := (hr.mem a).mpr (by rw [he]; rfl)
  rw [hm a e he]
  cases hq : q e with
  | true => simp [hmem, he, hq]
  | false => simp [hmem, he, hq]

/-! ## The timer -/

def IpnHashElem.expired (jiffies64 : BitVec 64) (e : IpnHashElem) : Bool := (e.expiretime - jiffies64).toInt < 0

lemma timerLoop_eq {j : BitVec 64} (hnodup : h.lrulist.Nodup) (hchain : ∀ i, (h.hashtable i).Nodup)
    (l : List Nat) (hl : l.Nodup) (hsome : ∀ a ∈ l, (h.elems a).isSome)
    (hsorted : l.Pairwise fun a b => ∀ e f, h.elems a = some e → h.elems b = some f →
      f.expired j = true → e.expired j = true)
    (p : Nat → Bool) (hp : ∀ a ∈ l, p a = true) :
    ∃ timer, timerLoop j l (h.restrict p) = { h.restrict (fun a => p a &&
        !(decide (a ∈ l) && (h.elems a).any (IpnHashElem.expired j))) with hashtimer := timer } ∧
      ((∃ a ∈ l, ∀ e, h.elems a = some e → e.expired j = false) → timer.isSome) := by
  induction l generalizing p with
  | nil => exact ⟨h.hashtimer, by simp [timerLoop, IpnHash.restrict], by simp⟩
  | cons a rest ih =>
    obtain ⟨hrest, hnodup'⟩ := nodup_cons.mp hl
    obtain ⟨hfirst, hsorted'⟩ := pairwise_cons.mp hsorted
    have hkept : (h.restrict p).elems a = h.elems a := by simp [IpnHash.restrict, hp a]
    obtain ⟨e, he⟩ := isSome_iff_exists.mp (hsome a (mem_cons_self ..))
    rw [timerLoop, hkept, he]
    dsimp only
    by_cases hq : (e.expiretime - j).toInt < 0
    · have hexp : e.expired j = true := by simpa [IpnHashElem.expired] using hq
      have hp' : ∀ b ∈ rest, (p b && (b != a)) = true := by
        intro b hb
        have hne : b ≠ a := fun heq => hrest (heq ▸ hb)
        simp [hp b (mem_cons_of_mem a hb), hne]
      obtain ⟨timer, hloop, htimer⟩ :=
        ih hnodup' (fun b hb => hsome b (mem_cons_of_mem a hb)) hsorted' _ hp'
      rw [if_pos hq, IpnHash.del_eq (hnodup.filter p) (fun i => (hchain i).filter p), IpnHash.restrict_restrict, hloop]
      refine ⟨timer, ?_, ?_⟩
      · have hsame : (fun b => (p b && b != a) && !(decide (b ∈ rest) && (h.elems b).any (IpnHashElem.expired j))) =
            fun b => p b && !(decide (b ∈ a :: rest) && (h.elems b).any (IpnHashElem.expired j)) := by
          funext b
          by_cases hb : b = a
          · simp [hb, he, hexp]
          have hne : (b != a) = true := by simpa using hb
          simp [hb, hne]
        rw [hsame]
      rintro ⟨b, hb, hvalid⟩
      cases mem_cons.mp hb with
      | inl heq =>
        rw [heq] at hvalid
        rw [hvalid e he] at hexp
        cases hexp
      | inr hin => exact htimer ⟨b, hin, hvalid⟩
    have hexp : e.expired j = false := by simpa [IpnHashElem.expired] using hq
    rw [if_neg hq]
    refine ⟨some (j + (e.expiretime - j)), ?_, fun _ => rfl⟩
    -- the elements behind it are valid even longer
    have hsame : (fun b => p b && !(decide (b ∈ a :: rest) && (h.elems b).any (IpnHashElem.expired j))) = p := by
      funext b
      by_cases hb : b ∈ a :: rest
      · have hvalid : (h.elems b).any (IpnHashElem.expired j) = false := by
          cases hf : h.elems b with
          | none => rfl
          | some f =>
            cases mem_cons.mp hb with
            | inl heq =>
              rw [heq, he] at hf
              rw [← some.inj hf]
              exact hexp
            | inr hin =>
              cases hx : f.expired j with
              | true =>
                rw [hfirst b hin e f he hf hx] at hexp
                cases hexp
              | false => exact hx
        simp [hvalid]
      · simp [hb]
    rw [hsame]

lemma expired_iff (hlate : now ≤ t + 2 ^ 63) (hearly : t < now + 2 ^ 63) :
    (BitVec.ofNat 64 t - BitVec.ofNat 64 now).toInt < 0 ↔ t < now := by
  have hdiff : (BitVec.ofNat 64 t - BitVec.ofNat 64 now).toInt = (t : Int) - now := by
    simp only [BitVec.toInt_sub, BitVec.toInt_ofNat']
    rw [Int.bmod_sub_bmod, Int.sub_bmod_bmod]
    apply Int.bmod_eq_of_le
    · omega
    · omega
  rw [hdiff]
  omega

lemma HashRep.timer (hr : HashRep h m) {now : Nat} (hlate : ∀ key v, m key = some v → now ≤ v.2 + 2 ^ 63)
    (hearly : ∀ key v, m key = some v → v.2 < now + 2 ^ 63) :
    ∃ timer, ipnHashTimerExpired (BitVec.ofNat 64 now) h = { h.restrict (fun a =>
        !(h.elems a).any (IpnHashElem.expired (BitVec.ofNat 64 now))) with hashtimer := timer } ∧
      ((∃ key, m.collect now key ≠ none) → timer.isSome) ∧
      (∀ a e v, h.elems a = some e → m e.key = some v →
        (e.expired (BitVec.ofNat 64 now) = true ↔ v.2 < now)) := by
  have hexp : ∀ a e v, h.elems a = some e → m e.key = some v →
      (e.expired (BitVec.ofNat 64 now) = true ↔ v.2 < now) := by
    intro a e v he hv
    obtain ⟨expiry, hm, htime⟩ := hr.stored a e he
    have heq : (e.port, expiry) = v := some.inj (hm.symm.trans hv)
    rw [IpnHashElem.expired, htime, decide_eq_true_eq, ← heq]
    exact expired_iff (hlate e.key _ hm) (hearly e.key _ hm)
  have hstored : ∀ a e, h.elems a = some e → ∃ v, m e.key = some v := by
    intro a e he
    obtain ⟨expiry, hm, _⟩ := hr.stored a e he
    exact ⟨_, hm⟩
  have hsorted : h.lrulist.Pairwise fun a b => ∀ e f, h.elems a = some e → h.elems b = some f →
      f.expired (BitVec.ofNat 64 now) = true → e.expired (BitVec.ofNat 64 now) = true := by
    apply hr.sorted.imp
    intro a b hab e f he hf hpast
    obtain ⟨v, hv⟩ := hstored a e he
    obtain ⟨w, hw⟩ := hstored b f hf
    rw [hexp b f w hf hw] at hpast
    rw [hexp a e v he hv]
    have := hab e f v w he hf hv hw
    omega
  have hsome : ∀ a ∈ h.lrulist, ({ h with hashtimer := none }.elems a).isSome := fun a ha => (hr.mem a).mp ha
  obtain ⟨timer, hloop, htimer⟩ := @timerLoop_eq { h with hashtimer := none } (BitVec.ofNat 64 now) hr.nodup hr.chainNodup
    h.lrulist hr.nodup hsome hsorted (fun _ => true) (fun _ _ => rfl)
  refine ⟨timer, ?_, ?_, hexp⟩
  · rw [IpnHash.restrict_true] at hloop
    rw [ipnHashTimerExpired, hloop]
    have hsame : ∀ a, (true && !(decide (a ∈ h.lrulist) &&
        (h.elems a).any (IpnHashElem.expired (BitVec.ofNat 64 now)))) =
        !(h.elems a).any (IpnHashElem.expired (BitVec.ofNat 64 now)) := by
      intro a
      by_cases ha : a ∈ h.lrulist
      · simp [ha]
      have hnone : h.elems a = none := by simpa using (hr.mem a).not.mp ha
      simp [ha, hnone]
    simp only [IpnHash.restrict, hsame]
  rintro ⟨key, hkey⟩
  apply htimer
  have hm : m key ≠ none := by
    intro hm
    apply hkey
    rw [KernelMap.collect, hm]
    rfl
  obtain ⟨a, e, he, heq⟩ := hr.covered key hm
  refine ⟨a, (hr.mem a).mpr (by rw [he]; rfl), ?_⟩
  intro f hf
  rw [show h.elems a = some f from hf] at he
  have hfe := some.inj he
  obtain ⟨v, hv⟩ := hstored a f hf
  cases hpast : f.expired (BitVec.ofNat 64 now) with
  | false => rfl
  | true =>
    rw [hexp a f v hf hv] at hpast
    apply absurd _ hkey
    rw [hfe, heq] at hv
    rw [KernelMap.collect, hv, Option.filter_some_neg]
    simpa using hpast

/-! ## Elements that come -/

lemma HashRep.findElem (hr : HashRep h m) (key : HashKey) (a : Nat) :
    h.findElem key = some a ↔ ∃ e, h.elems a = some e ∧ e.key = key := by
  have hfits : ∀ b, ((h.elems b).any fun elem => elem.key == key) = true ↔ ∃ e, h.elems b = some e ∧ e.key = key := by
    intro b
    simp [Option.any_eq_true]
  constructor
  · intro hfind
    have hbeq := find?_some hfind
    exact (hfits a).mp hbeq
  rintro ⟨e, he, hkey⟩
  have hin : a ∈ h.hashtable (h.chain key) := (hr.chain _ a).mpr ⟨e, he, by rw [hkey]⟩
  have hsome : ((h.hashtable (h.chain key)).find? fun b =>
      (h.elems b).any fun elem => elem.key == key).isSome :=
    find?_isSome.mpr ⟨a, hin, (hfits a).mpr ⟨e, he, hkey⟩⟩
  obtain ⟨b, hb⟩ := isSome_iff_exists.mp hsome
  have hbeq := find?_some hb
  obtain ⟨f, hf, hkey'⟩ := (hfits b).mp hbeq
  rw [IpnHash.findElem, hb, hr.unique b a f e hf he (hkey'.trans hkey.symm)]

lemma HashRep.findElem_none (hr : HashRep h m) (key : HashKey) : h.findElem key = none ↔ m key = none := by
  constructor
  · intro hfind
    by_contra hm
    obtain ⟨a, e, he, hkey⟩ := hr.covered key hm
    rw [(hr.findElem key a).mpr ⟨e, he, hkey⟩] at hfind
    cases hfind
  intro hm
  cases hfind : h.findElem key with
  | none => rfl
  | some a =>
    obtain ⟨e, he, hkey⟩ := (hr.findElem key a).mp hfind
    obtain ⟨expiry, hstored, _⟩ := hr.stored a e he
    rw [hkey, hm] at hstored
    cases hstored

lemma HashRep.find (hr : HashRep h m) (key : HashKey) : ipnHashFind key h = (m key).elim (-1) Prod.fst := by
  unfold ipnHashFind
  cases hfind : h.findElem key with
  | none =>
    rw [(hr.findElem_none key).mp hfind]
    rfl
  | some a =>
    obtain ⟨e, he, hkey⟩ := (hr.findElem key a).mp hfind
    obtain ⟨expiry, hstored, _⟩ := hr.stored a e he
    rw [hkey] at hstored
    rw [hstored]
    simp [he]

lemma ipnHashLink_elems {b : Nat} (he : (ipnHashLink h (BitVec.ofNat 64 now) a key port).elems b = some e) : b = a ∧
    e = ⟨key, port, BitVec.ofNat 64 now + h.timeout⟩ ∨ b ≠ a ∧ h.elems b = some e := by
  by_cases hb : b = a
  · subst hb
    simp only [ipnHashLink, update_self, Option.some.injEq] at he
    exact .inl ⟨rfl, he.symm⟩
  · exact .inr ⟨hb, by simpa [ipnHashLink, hb] using he⟩

lemma HashRep.key_ne (hr : HashRep h m) (hkey : m key = none) {b : Nat}
    (he : h.elems b = some e) : e.key ≠ key := by
  intro heq
  obtain ⟨expiry, hstored, _⟩ := hr.stored b e he
  rw [heq, hkey] at hstored
  cases hstored

lemma HashRep.not_mem (hr : HashRep h m) (ha : h.elems a = none) : a ∉ h.lrulist ∧ ∀ i, a ∉ h.hashtable i := by
  constructor
  · rw [hr.mem a, ha]
    simp
  intro i hi
  obtain ⟨e, he, _⟩ := (hr.chain i a).mp hi
  rw [ha] at he
  cases he

lemma HashRep.link_chain (hr : HashRep h m) (key : HashKey) (port : Int) (ha : h.elems a = none)
    (i b : Nat) : b ∈ (ipnHashLink h (BitVec.ofNat 64 now) a key port).hashtable i ↔ ∃ e,
    (ipnHashLink h (BitVec.ofNat 64 now) a key port).elems b = some e ∧ h.chain e.key = i := by
  obtain ⟨_, hout⟩ := hr.not_mem ha
  by_cases hb : b = a
  · subst hb
    by_cases hi : i = h.chain key
    · subst hi
      simp [ipnHashLink]
    · simp [ipnHashLink, hi, hout i, Ne.symm hi]
  have hsame : b ∈ (ipnHashLink h (BitVec.ofNat 64 now) a key port).hashtable i ↔ b ∈ h.hashtable i := by
    by_cases hi : i = h.chain key
    · subst hi
      simp [ipnHashLink, hb]
    · simp [ipnHashLink, hi]
  rw [hsame, hr.chain i b]
  simp [ipnHashLink, hb]

lemma HashRep.link_sorted (hr : HashRep h m) (key : HashKey) (port : Int) (ha : h.elems a = none)
    (hkey : m key = none) (hlatest : ∀ key v, m key = some v → v.2 ≤ now + h.timeout.toNat) :
    (h.lrulist ++ [a]).Pairwise fun b c => ∀ e f v w, (ipnHashLink h (BitVec.ofNat 64 now) a key port).elems b =
    some e → (ipnHashLink h (BitVec.ofNat 64 now) a key port).elems c = some f →
    m.add key port (now + h.timeout.toNat) e.key = some v → m.add key port (now + h.timeout.toNat) f.key = some w →
    v.2 ≤ w.2 := by
  obtain ⟨hout, _⟩ := hr.not_mem ha
  have hold : ∀ d g, d ∈ h.lrulist → (ipnHashLink h (BitVec.ofNat 64 now) a key port).elems d = some g →
      h.elems d = some g ∧ m.add key port (now + h.timeout.toNat) g.key = m g.key := by
    intro d g hd hg
    cases ipnHashLink_elems hg with
    | inl hnew => exact absurd (hnew.1 ▸ hd) hout
    | inr hold => exact ⟨hold.2, update_of_ne (hr.key_ne hkey hold.2) _ _⟩
  apply pairwise_append.mpr
  refine ⟨?_, pairwise_singleton .., ?_⟩
  · apply hr.sorted.imp_of_mem
    intro b c hb hc hbc e f v w he hf hv hw
    obtain ⟨he, hsame⟩ := hold b e hb he
    obtain ⟨hf, hsame'⟩ := hold c f hc hf
    rw [hsame] at hv
    rw [hsame'] at hw
    exact hbc e f v w he hf hv hw
  intro b hb c hc e f v w he hf hv hw
  have hca := mem_singleton.mp hc
  subst hca
  obtain ⟨-, hsame⟩ := hold b e hb he
  rw [hsame] at hv
  cases ipnHashLink_elems hf with
  | inr hother => exact absurd rfl hother.1
  | inl hnew =>
    rw [hnew.2, KernelMap.add, update_self] at hw
    rw [← some.inj hw]
    exact hlatest e.key v hv

lemma HashRep.link (hr : HashRep h m) {now a : Nat} (key : HashKey) (port : Int) (ha : h.elems a = none)
    (hkey : m key = none) (hlatest : ∀ key v, m key = some v → v.2 ≤ now + h.timeout.toNat) :
    HashRep (ipnHashLink h (BitVec.ofNat 64 now) a key port) (m.add key port (now + h.timeout.toNat)) := by
  obtain ⟨hout, hchainOut⟩ := hr.not_mem ha
  have hadd : ∀ k, k ≠ key → m.add key port (now + h.timeout.toNat) k = m k := by
    intro k hk
    exact update_of_ne hk _ _
  exact {
    nodup := by
      apply Nodup.append hr.nodup (nodup_singleton a)
      intro b hb hba
      exact hout (mem_singleton.mp hba ▸ hb)
    mem := by
      intro b
      by_cases hb : b = a
      · simp [ipnHashLink, hb]
      · simp [ipnHashLink, hb, hr.mem b]
    chainNodup := by
      intro i
      by_cases hi : i = h.chain key
      · subst hi
        simp [ipnHashLink, hchainOut, hr.chainNodup]
      · simp [ipnHashLink, hi, hr.chainNodup]
    chain := hr.link_chain key port ha
    unique := by
      intro b c e f he hf heq
      cases ipnHashLink_elems he with
      | inl hnew =>
        cases ipnHashLink_elems hf with
        | inl hnew' => rw [hnew.1, hnew'.1]
        | inr hold =>
          rw [hnew.2] at heq
          exact absurd heq.symm (hr.key_ne hkey hold.2)
      | inr hold =>
        cases ipnHashLink_elems hf with
        | inl hnew =>
          rw [hnew.2] at heq
          exact absurd heq (hr.key_ne hkey hold.2)
        | inr hold' => exact hr.unique b c e f hold.2 hold'.2 heq
    stored := by
      intro b e he
      cases ipnHashLink_elems he with
      | inl hnew =>
        rw [hnew.2]
        refine ⟨_, update_self .., ?_⟩
        simp [BitVec.ofNat_add]
      | inr hold =>
        rw [hadd _ (hr.key_ne hkey hold.2)]
        exact hr.stored b e hold.2
    covered := by
      intro k hk
      by_cases heq : k = key
      · exact ⟨a, ⟨key, port, BitVec.ofNat 64 now + h.timeout⟩, by simp [ipnHashLink], heq.symm⟩
      rw [hadd k heq] at hk
      obtain ⟨b, e, he, hke⟩ := hr.covered k hk
      refine ⟨b, e, ?_, hke⟩
      have hb : b ≠ a := by
        rintro rfl
        rw [ha] at he
        cases he
      simpa [ipnHashLink, hb] using he
    sorted := hr.link_sorted key port ha hkey hlatest }

end

/-! ## Runs -/

/-- The table, the map it should stand for, the clock, and whether there were elements after the last add or run
of the timer. -/
structure KernelTable where
  hash : IpnHash
  map : KernelMap
  now : Nat
  filled : Bool

inductive KernelEvent where
  | add (key : HashKey) (port : Int) (alloc : Option Nat) (t : Nat)
  | find (key : HashKey)
  | flush
  | flushPort (port : Int)
  | timer (t : Nat)

/-- An event, on the table and on the map. A new key is added only where there is memory for it. -/
def KernelTable.step (s : KernelTable) : KernelEvent → KernelTable
  | .add key port alloc t =>
    let hash := ipnHashAdd (BitVec.ofNat 64 t) alloc key port s.hash
    { hash := hash
      map := if (s.map key).isNone && alloc.isNone then s.map else s.map.add key port (t + s.hash.timeout.toNat)
      now := t
      filled := !hash.lrulist.isEmpty }
  | .find _ => s
  | .flush => { s with hash := ipnHashFlush s.hash, map := fun _ => none }
  | .flushPort port => { s with hash := ipnHashFlushPort port s.hash, map := s.map.flushPort port }
  | .timer t =>
    let hash := ipnHashTimerExpired (BitVec.ofNat 64 t) s.hash
    { hash := hash, map := s.map.collect t, now := t, filled := !hash.lrulist.isEmpty }

/-- The clock does not go back, memory comes at free addresses, and only a timer that is pending runs. -/
def KernelEvent.Legal (s : KernelTable) : KernelEvent → Prop
  | .add _ _ alloc t => s.now ≤ t ∧ ∀ a, alloc = some a → s.hash.elems a = none
  | .timer t => s.now ≤ t ∧ s.hash.hashtimer.isSome
  | _ => True

def kernelMachine : Machine KernelTable KernelEvent where
  enabled s e := e.Legal s
  step := KernelTable.step

def KernelStart (s : KernelTable) : Prop :=
  ∃ hz timeout bits alloc, 0 < hz.toNat ∧ timeout.toNat * hz.toNat < 2 ^ 63 ∧ bits < 31 ∧
    ipnHashNew hz (BitVec.ofNat 32 (2 ^ bits)) timeout alloc = some s.hash ∧ s.map = (fun _ => none) ∧ s.filled = false

structure KernelRight (s : KernelTable) : Prop where
  rep : HashRep s.hash s.map
  finite : {key | s.map key ≠ none}.Finite
  inside : ∀ key, s.hash.chain key < s.hash.size
  pending : s.filled = true → s.hash.hashtimer.isSome

def EventRight (s : KernelTable) : KernelEvent → Prop
  | .find key => ipnHashFind key s.hash = (s.map key).elim (-1) Prod.fst
  | .timer t => ∀ a e v, s.hash.elems a = some e → s.map e.key = some v →
      ((ipnHashTimerExpired (BitVec.ofNat 64 t) s.hash).elems a = none ↔ v.2 < t)
  | _ => True

/-- The timer runs before the times of the elements are so long ago that the difference is no `long`. -/
def TimerOk (s : KernelTable) : KernelEvent → Prop
  | .timer t => ∀ key v, s.map key = some v → t ≤ v.2 + 2 ^ 63
  | _ => True

structure KernelInv (s : KernelTable) : Prop where
  rep : HashRep s.hash s.map
  latest : ∀ key v, s.map key = some v → v.2 ≤ s.now + s.hash.timeout.toNat
  inside : ∀ key, s.hash.chain key < s.hash.size
  pending : s.filled = true ∨ s.hash.lrulist ≠ [] → s.hash.hashtimer.isSome
  positive : 0 < s.hash.timeout
  small : s.hash.timeout.toNat < 2 ^ 63

lemma HashRep.finite {h : IpnHash} {m : KernelMap} (hr : HashRep h m) : {key | m key ≠ none}.Finite := by
  have hkeys : {key | m key ≠ none} ⊆
      ↑((h.lrulist.filterMap fun a => (h.elems a).map IpnHashElem.key).toFinset) := by
    intro key hkey
    obtain ⟨a, e, he, heq⟩ := hr.covered key hkey
    have hin : a ∈ h.lrulist := (hr.mem a).mpr (by rw [he]; rfl)
    simp only [coe_toFinset, Set.mem_ofPred_eq, mem_filterMap]
    exact ⟨a, hin, by rw [he, ← heq]; rfl⟩
  exact (Finset.finite_toSet _).subset hkeys

variable {s : KernelTable}

lemma KernelInv.right (h : KernelInv s) : KernelRight s where
  rep := h.rep
  finite := h.rep.finite
  inside := h.inside
  pending hfilled := h.pending (.inl hfilled)

lemma po2round_twoPow : ∀ bits : Fin 31,
    po2round (BitVec.ofNat 32 (2 ^ bits.val)) - 1 = BitVec.ofNat 32 (2 ^ bits.val - 1) := by
  decide +kernel

lemma hashRep_new {hz : BitVec 64} {size : BitVec 32} {timeout : BitVec 64} {alloc : Bool} {h : IpnHash}
    (hnew : ipnHashNew hz size timeout alloc = some h) : HashRep h (fun _ => none) ∧ ∀ a, h.elems a = none := by
  unfold ipnHashNew at hnew
  split_ifs at hnew
  have hhash := some.inj hnew
  rw [← hhash]
  exact ⟨{
    nodup := nodup_nil
    mem := by simp
    chainNodup := fun _ => nodup_nil
    chain := by simp
    unique := by simp
    stored := by simp
    covered := by simp
    sorted := List.Pairwise.nil }, fun _ => rfl⟩

lemma KernelStart.inv {s : KernelTable} (hs : KernelStart s) : KernelInv s := by
  obtain ⟨hz, timeout, bits, alloc, hhz, hsmall, hbits, hnew, hmap, hfilled⟩ := hs
  obtain ⟨hempty, _⟩ := hashRep_new hnew
  unfold ipnHashNew at hnew
  split_ifs at hnew with hargs halloc
  have htimeout : (timeout * hz).toNat = timeout.toNat * hz.toNat := by
    rw [BitVec.toNat_mul, Nat.mod_eq_of_lt]
    exact Nat.lt_trans hsmall (by omega)
  have hpos : 0 < timeout.toNat := by
    have hne : timeout ≠ 0 := fun h => hargs (.inr h)
    by_contra hzero
    have hnat : timeout.toNat = 0 := by omega
    exact hne (BitVec.eq_of_toNat_eq (by simpa using hnat))
  have hhash := some.inj hnew
  have hrep : HashRep s.hash s.map := by
    rw [hmap]
    exact hempty
  refine ⟨hrep, ?_, ?_, ?_, ?_, ?_⟩
  · intro key v hv
    rw [hmap] at hv
    cases hv
  · intro key
    rw [← hhash]
    dsimp only [IpnHash.chain]
    have hsize : (BitVec.ofNat 32 (2 ^ bits)).toNat = 2 ^ bits := by
      have : 2 ^ bits ≤ 2 ^ 30 := Nat.pow_le_pow_right (by omega) (by omega)
      rw [BitVec.toNat_ofNat, Nat.mod_eq_of_lt]
      omega
    have hmask := po2round_twoPow ⟨bits, hbits⟩
    dsimp only at hmask
    rw [hsize, hmask, hashfun, BitVec.toNat_and]
    have hpow : 0 < 2 ^ bits := Nat.two_pow_pos bits
    apply Nat.lt_of_le_of_lt Nat.and_le_right
    apply Nat.lt_of_le_of_lt (Nat.mod_le _ _)
    omega
  · intro hne
    rw [hfilled, ← hhash] at hne
    simp at hne
  · rw [← hhash, BitVec.lt_def, htimeout]
    exact Nat.mul_pos hpos hhz
  · rw [← hhash, htimeout]
    exact hsmall

variable {alloc : Option Nat}

section

variable {h : IpnHash} {m : KernelMap}

lemma HashRep.lrulist_nil (hr : HashRep h m) (hm : ∀ key, m key = none) : h.lrulist = [] := by
  apply eq_nil_iff_forall_not_mem.mpr
  intro a ha
  obtain ⟨e, he⟩ := isSome_iff_exists.mp ((hr.mem a).mp ha)
  obtain ⟨expiry, hstored, _⟩ := hr.stored a e he
  rw [hm] at hstored
  cases hstored

def IpnHash.Learns (h : IpnHash) (m : KernelMap) (key : HashKey) (alloc : Option Nat) : Prop :=
  m key ≠ none ∨ 0 < h.timeout ∧ alloc ≠ none

lemma HashRep.add_skips (hr : HashRep h m) {j : BitVec 64}
    (hskip : ¬h.Learns m key alloc) : ipnHashAdd j alloc key port h = h := by
  obtain ⟨hkey, hnew⟩ := not_or.mp hskip
  unfold ipnHashAdd
  rw [(hr.findElem_none key).mpr (not_not.mp hkey)]
  dsimp only
  split_ifs with hpos
  · rw [not_not.mp (fun halloc => hnew ⟨hpos, halloc⟩)]
  · rfl

lemma HashRep.add_learns (hr : HashRep h m) (key : HashKey) (port : Int)
    (hlatest : ∀ key v, m key = some v → v.2 ≤ now + h.timeout.toNat)
    (halloc : ∀ a, alloc = some a → h.elems a = none) (hlearns : h.Learns m key alloc) :
    let h' := ipnHashAdd (BitVec.ofNat 64 now) alloc key port h
    HashRep h' (m.add key port (now + h.timeout.toNat)) ∧
      h'.timeout = h.timeout ∧ h'.mask = h.mask ∧ h'.size = h.size ∧ h'.hashtimer.isSome := by
  dsimp only
  unfold ipnHashAdd
  have hpending : ∀ h₀ : IpnHash, ∀ a, (ipnHashLink h₀ (BitVec.ofNat 64 now) a key port).hashtimer.isSome := by
    intro h₀ a
    dsimp only [ipnHashLink]
    split_ifs with htimer
    · exact htimer
    · rfl
  cases hfind : h.findElem key with
  | none =>
    have hm := (hr.findElem_none key).mp hfind
    obtain ⟨hpos, hmem⟩ := hlearns.resolve_left (not_not.mpr hm)
    obtain ⟨a, ha⟩ := ne_none_iff_exists'.mp hmem
    dsimp only
    rw [if_pos hpos, ha]
    exact ⟨hr.link key port (halloc a ha) hm hlatest, rfl, rfl, rfl, hpending h a⟩
  | some a =>
    obtain ⟨e, he, hkey⟩ := (hr.findElem key a).mp hfind
    -- the element is deleted, and comes again at the same address
    have hdel : HashRep (h.del a) (update m key none) := by
      rw [IpnHash.del_eq hr.nodup hr.chainNodup]
      apply hr.restrict
      · intro b f hf
        by_cases hb : b = a
        · subst hb
          rw [he] at hf
          rw [← some.inj hf, hkey]
          simp
        have hne : f.key ≠ key := fun heq => hb (hr.unique b a f e hf he (heq.trans hkey.symm))
        simp [hb, hne]
      intro k hk
      by_cases heq : k = key
      · simp [heq]
      · simp [heq, hk]
    have hlink := @HashRep.link (h.del a) _ hdel now a key port (by simp [IpnHash.del]) (by simp) (by
      intro k v hv
      by_cases heq : k = key
      · simp [heq] at hv
      · exact hlatest k v (by simpa [heq] using hv))
    have hsame : ipnHashLink (h.del a) (BitVec.ofNat 64 now) a key port =
        ipnHashLink (h.unlink a) (BitVec.ofNat 64 now) a key port := by
      simp only [ipnHashLink, IpnHash.del, IpnHash.unlink, update_idem]
      rfl
    have hmap : KernelMap.add key port (now + (h.del a).timeout.toNat) (update m key none) =
        m.add key port (now + h.timeout.toNat) := by
      simp [KernelMap.add, IpnHash.del, IpnHash.unlink]
    rw [hsame, hmap] at hlink
    exact ⟨hlink, rfl, rfl, rfl, hpending _ a⟩

lemma flushLoop_fields (q : IpnHashElem → Bool) (l : List Nat) (h : IpnHash) : (flushLoop q l h).timeout =
    h.timeout ∧ (flushLoop q l h).mask = h.mask ∧ (flushLoop q l h).size = h.size ∧ (flushLoop q l h).hashtimer =
    h.hashtimer := by
  induction l generalizing h with
  | nil => exact ⟨rfl, rfl, rfl, rfl⟩
  | cons a rest ih =>
    rw [flushLoop]
    cases h.elems a with
    | none => exact ih h
    | some e =>
      dsimp only
      split_ifs
      · exact ih (h.del a)
      · exact ih h

end

lemma KernelInv.flush (h : KernelInv s) {q : IpnHashElem → Bool} {m : KernelMap}
    (hm : ∀ a e, s.hash.elems a = some e → m e.key = if q e then none else s.map e.key)
    (hless : ∀ key v, m key = some v → s.map key = some v) :
    KernelInv { s with hash := flushLoop q s.hash.lrulist s.hash, map := m } := by
  obtain ⟨htimeout, hmask, hsize, htimer⟩ := flushLoop_fields q s.hash.lrulist s.hash
  have hnone : ∀ key, s.map key = none → m key = none := by
    intro key hkey
    cases hv : m key with
    | none => rfl
    | some v =>
      rw [hless key v hv] at hkey
      cases hkey
  have hrep := h.rep.flush hm hnone
  refine ⟨hrep, ?_, ?_, ?_, ?_, ?_⟩
  · intro key v hv
    rw [htimeout]
    exact h.latest key v (hless key v hv)
  · intro key
    have := h.inside key
    dsimp only [IpnHash.chain] at this ⊢
    rw [hmask, hsize]
    exact this
  · intro hor
    rw [htimer]
    apply h.pending
    cases hor with
    | inl hfilled => exact .inl hfilled
    | inr hne =>
      right
      intro hnil
      apply hne
      dsimp only
      rw [hnil]
      exact hnil
  · rw [htimeout]
    exact h.positive
  · rw [htimeout]
    exact h.small

lemma KernelInv.flushPort (h : KernelInv s) (port : Int) : KernelInv (s.step (.flushPort port)) := by
  apply h.flush
  · intro a e he
    obtain ⟨expiry, hstored, _⟩ := h.rep.stored a e he
    rw [KernelMap.flushPort, hstored]
    by_cases hport : e.port = port
    · simp [hport]
    · simp [hport]
  intro key v hv
  have hv : (s.map key).filter _ = some v := hv
  exact (filter_eq_some_iff.mp hv).1

lemma KernelInv.add (h : KernelInv s)
    (he : (KernelEvent.add key port alloc t).Legal s) : KernelInv (s.step (.add key port alloc t)) := by
  obtain ⟨hnow, halloc⟩ := he
  have hlatest : ∀ key v, s.map key = some v → v.2 ≤ t + s.hash.timeout.toNat := by
    intro key v hv
    have := h.latest key v hv
    omega
  have hmap : ∀ m' : KernelMap, m' = s.map ∨ m' = s.map.add key port (t + s.hash.timeout.toNat) →
      ∀ k v, m' k = some v → v.2 ≤ t + s.hash.timeout.toNat := by
    intro m' hm' k v hv
    cases hm' with
    | inl hsame =>
      rw [hsame] at hv
      exact hlatest k v hv
    | inr hadd =>
      rw [hadd, KernelMap.add] at hv
      by_cases hk : k = key
      · rw [hk, update_self] at hv
        rw [← some.inj hv]
      rw [update_of_ne hk] at hv
      exact hlatest k v hv
  have hstep : s.step (.add key port alloc t) =
      let hash := ipnHashAdd (BitVec.ofNat 64 t) alloc key port s.hash
      { hash := hash
        map := if (s.map key).isNone && alloc.isNone then s.map else s.map.add key port (t + s.hash.timeout.toNat)
        now := t
        filled := !hash.lrulist.isEmpty } := rfl
  rw [hstep]
  by_cases hlearns : s.hash.Learns s.map key alloc
  · have hif : ((s.map key).isNone && alloc.isNone) = false := by
      cases hlearns with
      | inl hkey => simp [hkey]
      | inr hnew =>
        have hsome := isSome_iff_ne_none.mpr hnew.2
        simp [hsome]
    obtain ⟨hrep, htimeout, hmask, hsize, htimer⟩ := h.rep.add_learns key port hlatest halloc hlearns
    simp only [hif, Bool.false_eq_true, if_false]
    refine ⟨hrep, ?_, ?_, fun _ => htimer, ?_, ?_⟩
    · dsimp only
      rw [htimeout]
      exact hmap _ (.inr rfl)
    · intro k
      have := h.inside k
      dsimp only [IpnHash.chain] at this ⊢
      rw [hmask, hsize]
      exact this
    · dsimp only
      rw [htimeout]
      exact h.positive
    · dsimp only
      rw [htimeout]
      exact h.small
  have hif : ((s.map key).isNone && alloc.isNone) = true := by
    obtain ⟨hkey, hnew⟩ := not_or.mp hlearns
    have halloc : alloc = none := not_not.mp (fun hne => hnew ⟨h.positive, hne⟩)
    simp [not_not.mp hkey, halloc]
  simp only [h.rep.add_skips hlearns, hif, if_true]
  refine ⟨h.rep, hmap _ (.inl rfl), h.inside, ?_, h.positive, h.small⟩
  intro hor
  apply h.pending
  right
  cases hor with
  | inl hfilled => simpa using hfilled
  | inr hne => exact hne

lemma HashRep.collect_kept {h : IpnHash} {m : KernelMap} (hr : HashRep h m)
    (hexp : ∀ a e v, h.elems a = some e → m e.key = some v → (e.expired (BitVec.ofNat 64 t) = true ↔ v.2 < t)) :
    ∀ a e, h.elems a = some e → m.collect t e.key =
    if !(h.elems a).any (IpnHashElem.expired (BitVec.ofNat 64 t)) then m e.key else none := by
  intro a e he
  obtain ⟨expiry, hstored, _⟩ := hr.stored a e he
  have hiff := hexp a e _ he hstored
  rw [KernelMap.collect, hstored, he]
  by_cases hpast : expiry < t
  · simp [hiff.mpr hpast, hpast]
  have hvalid : e.expired (BitVec.ofNat 64 t) = false := by
    cases hx : e.expired (BitVec.ofNat 64 t) with
    | false => rfl
    | true => exact absurd (hiff.mp hx) hpast
  have hle : t ≤ expiry := by omega
  simp [hvalid, hle]

lemma KernelInv.timer {s : KernelTable} (h : KernelInv s) {t : Nat} (he : (KernelEvent.timer t).Legal s)
    (hok : TimerOk s (.timer t)) : KernelInv (s.step (.timer t)) ∧ EventRight s (.timer t) := by
  obtain ⟨hnow, _⟩ := he
  have hearly : ∀ key v, s.map key = some v → v.2 < t + 2 ^ 63 := by
    intro key v hv
    have := h.latest key v hv
    have := h.small
    omega
  obtain ⟨timer, hrun, htimer, hexp⟩ := h.rep.timer hok hearly
  have hkept := h.rep.collect_kept hexp
  have hnone : ∀ key, s.map key = none → s.map.collect t key = none := by
    intro key hkey
    rw [KernelMap.collect, hkey]
    rfl
  have hrep := h.rep.restrict hkept hnone
  constructor
  · have hstep : s.step (.timer t) =
        let hash := ipnHashTimerExpired (BitVec.ofNat 64 t) s.hash
        { hash := hash, map := s.map.collect t, now := t, filled := !hash.lrulist.isEmpty } := rfl
    rw [hstep, hrun]
    refine ⟨?_, ?_, h.inside, ?_, h.positive, h.small⟩
    · exact ⟨hrep.nodup, hrep.mem, hrep.chainNodup, hrep.chain, hrep.unique, hrep.stored, hrep.covered, hrep.sorted⟩
    · intro key v hv
      have hv : (s.map key).filter _ = some v := hv
      have := h.latest key v (filter_eq_some_iff.mp hv).1
      dsimp only [IpnHash.restrict]
      omega
    intro hor
    apply htimer
    by_contra hempty
    have hnil := hrep.lrulist_nil (fun key => by_contra fun hkey => hempty ⟨key, hkey⟩)
    cases hor with
    | inl hfilled =>
      dsimp only at hfilled
      rw [hnil] at hfilled
      cases hfilled
    | inr hne => exact hne hnil
  intro a e v he hv
  rw [hrun]
  have hiff := hexp a e v he hv
  simp only [IpnHash.restrict, he, Option.any_some]
  rw [← hiff]
  cases e.expired (BitVec.ofNat 64 t) with
  | false => simp
  | true => simp

lemma KernelInv.step {s : KernelTable} {e : KernelEvent} (h : KernelInv s) (he : e.Legal s) (hok : TimerOk s e) :
    KernelInv (s.step e) ∧ EventRight s e := by
  cases e with
  | find key => exact ⟨h, h.rep.find key⟩
  | flush =>
    refine ⟨h.flush ?_ ?_, trivial⟩
    · intro a e _
      rfl
    intro key v hv
    cases hv
  | flushPort port => exact ⟨h.flushPort port, trivial⟩
  | add key port alloc t => exact ⟨h.add he, trivial⟩
  | timer t => exact h.timer he hok

/-- The table stands for the map in every state of a run. -/
theorem kernelTable_refines_map {s : KernelTable} (hs : KernelStart s) (es : List KernelEvent)
    (hes : kernelMachine.Along kernelMachine.enabled s es) (hok : kernelMachine.Along TimerOk s es) :
    kernelMachine.Always KernelRight s es ∧ kernelMachine.Along EventRight s es := by
  apply Machine.Along.always_and_along KernelInv (fun _ h => h.right) _ hs.inv (hes.and hok)
  intro s e h he
  exact h.step he.1 he.2

def freshKernelHash : IpnHash :=
  { elems := fun _ => none, size := 256, hashtable := fun _ => [], lrulist := [], mask := 255, timeout := 7500,
    hashtimer := none }

def freshKernel : KernelTable := { hash := freshKernelHash, map := fun _ => none, now := 0, filled := false }

lemma freshKernel_start : KernelStart freshKernel :=
  ⟨250, 30, 8, true, by decide, by decide, by decide, rfl, rfl, rfl⟩

def stationKey : HashKey := ⟨2, 0, 1, 0⟩

def stationRun : List KernelEvent := [.add stationKey 3 (some 0) 5, .find stationKey, .timer 9000]

theorem kernelTable_refines_map_station : kernelMachine.Always KernelRight freshKernel stationRun ∧
    kernelMachine.Along EventRight freshKernel stationRun := by
  apply kernelTable_refines_map freshKernel_start
  · exact ⟨⟨by decide, fun _ _ => rfl⟩, trivial, ⟨by decide, rfl⟩, trivial⟩
  refine ⟨trivial, trivial, ?_, trivial⟩
  intro key v hv
  have hv : KernelMap.add stationKey 3 (5 + 7500) (fun _ => none) key = some v := hv
  by_cases hk : key = stationKey
  · rw [hk, KernelMap.add, update_self] at hv
    rw [← some.inj hv]
    decide
  rw [KernelMap.add, update_of_ne hk] at hv
  cases hv

/-- Without memory a station is not found, and with a timeout of more than a `long` it is collected at once. -/
theorem kernelTable_forgets :
    (ipnHashNew 250 256 30 true = some freshKernelHash ∧
      ipnHashFind stationKey (ipnHashAdd 0 none stationKey 3 freshKernelHash) ≠ 3) ∧
    ∃ h, ipnHashNew 1 256 0x8000000000000002 true = some h ∧
      ∃ e, (ipnHashAdd 0 (some 0) stationKey 3 h).elems 0 = some e ∧ 1 < e.expiretime ∧
        (ipnHashTimerExpired 1 (ipnHashAdd 0 (some 0) stationKey 3 h)).elems 0 = none := by
  refine ⟨⟨rfl, by decide⟩, _, rfl, _, rfl, by decide, ?_⟩
  rfl

end Vde.Ipn
