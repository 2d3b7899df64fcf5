import Mathlib.Data.List.Induction
import Vde.Lib.CommonPrefix
import Vde.Vdehist

/-!
# Completion in libvdehist

`tabexpand` keeps, over the commands that begin with the text before the cursor, the first one and the length of their
longest common prefix, and puts the part of this prefix into the line that is not there yet.
-/

namespace Vde.Hist

open List

def tabMatching (commands : List (List UInt8)) (line : List UInt8) (cursor : Nat) : List (List UInt8) :=
  commands.filter fun s => strncmpEq line s cursor

/-- What a completion makes of a line, where `ok` holds: the text up to the cursor is the longest common prefix of
the commands that match, with a blank behind the only one, and what agreed with it is gone behind the cursor. -/
structure TabRight (ok : Prop) (commands : List (List UInt8)) (line : List UInt8) (cursor : Int) (maxlength : Nat)
    (r : List UInt8 × Int) : Prop where
  short : r.1.length < maxlength
  inside : 0 ≤ r.2 ∧ r.2 ≤ r.1.length
  kept : ¬ok ∨ tabMatching commands line cursor.toNat = [] → r = (line, cursor)
  before : ok → tabMatching commands line cursor.toNat ≠ [] →
    ∃ p, LongestPrefix p (tabMatching commands line cursor.toNat) ∧
      (r.1.take r.2.toNat = p ∨
        (tabMatching commands line cursor.toNat).length = 1 ∧ r.1.take r.2.toNat = p ++ [32]) ∧
      r.1.drop r.2.toNat = line.drop (agreement line p)

/-! ## The matches -/

lemma commonPrefix_eq (x y : List UInt8) (maxlen : Nat) : commonPrefix x y maxlen = agreement (x.take maxlen) y := by
  induction x generalizing y maxlen with
  | nil =>
    rw [take_nil, agreement_nil]
    rfl
  | cons a x ih =>
    cases maxlen with
    | zero =>
      rw [take_zero, agreement_nil]
      cases y <;> rfl
    | succ maxlen =>
      cases y with
      | nil => rfl
      | cons b y =>
        rw [take_succ_cons, commonPrefix]
        by_cases hab : a = b
        · subst hab
          rw [if_pos rfl, agreement_cons_self, ih]
        · rw [if_neg hab, agreement_cons_ne hab]

lemma commonPrefix_comm (x y : List UInt8) (maxlen : Nat) : commonPrefix x y maxlen = commonPrefix y x maxlen := by
  induction x generalizing y maxlen with
  | nil => cases y <;> rfl
  | cons a x ih =>
    cases y with
    | nil => rfl
    | cons b y =>
      cases maxlen with
      | zero => rfl
      | succ maxlen =>
        rw [commonPrefix, commonPrefix]
        by_cases hab : a = b
        · rw [if_pos hab, if_pos hab.symm, ih]
        · rw [if_neg hab, if_neg (Ne.symm hab)]

lemma commonPrefix_le (x y : List UInt8) (maxlen : Nat) :
    commonPrefix x y maxlen ≤ maxlen ∧ commonPrefix x y maxlen ≤ x.length := by
  have hle := (agreement_le (x.take maxlen) y).1
  rw [length_take] at hle
  rw [commonPrefix_eq]
  omega

variable {commands : List (List UInt8)} {line : List UInt8} {b : Nat}

lemma tabMatches_snoc (commands : List (List UInt8)) (s line : List UInt8) (b : Nat) :
    tabMatches (commands ++ [s]) line b = tabScan line b (tabMatches commands line b) s := by
  rw [tabMatches, foldl_append]
  rfl

lemma toInt32_toNat_le (n : Nat) : (toInt32 n).toNat ≤ n :=
  Int.toNat_le.mpr (toInt32_le (Int.natCast_nonneg n))

lemma tabMatches_len (commands : List (List UInt8)) (line : List UInt8) (b : Nat) :
    (tabMatches commands line b).len.toNat ≤ (tabMatches commands line b).found.length := by
  induction commands using reverseRecOn with
  | nil => exact Nat.le_refl 0
  | append_singleton commands s ih =>
    rw [tabMatches_snoc, tabScan]
    by_cases hmatch : strncmpEq line s b = true
    · rw [if_pos hmatch]
      by_cases hfirst : (tabMatches commands line b).nmatches = 0
      · rw [if_pos hfirst]
        dsimp only
        exact toInt32_toNat_le s.length
      rw [if_neg hfirst]
      exact (commonPrefix_le _ _ _).2
    rw [if_neg hmatch]
    exact ih

structure TabFound (ms : List (List UInt8)) (t : TabScan) : Prop where
  nmatches : t.nmatches = ms.length
  none : ms = [] → t.len = 0
  len : 0 ≤ t.len
  longest : ms ≠ [] → LongestPrefix (t.found.take t.len.toNat) ms

lemma TabFound.first {s : List UInt8} (hs : s.length < 2147483648) : TabFound [s] ⟨1, s, toInt32 s.length⟩ where
  nmatches := rfl
  none := fun h => absurd h (cons_ne_nil s [])
  len := by
    rw [toInt32_of_lt hs]
    exact Int.natCast_nonneg _
  longest := by
    intro _
    rw [toInt32_of_lt hs]
    change LongestPrefix (s.take s.length) [s]
    rw [take_length]
    exact longestPrefix_singleton s

lemma TabFound.next {ms : List (List UInt8)} {t : TabScan} (h : TabFound ms t) (hne : ms ≠ []) (s : List UInt8) :
    TabFound (ms ++ [s]) ⟨t.nmatches + 1, t.found, commonPrefix t.found s t.len.toNat⟩ where
  nmatches := by
    rw [length_append, h.nmatches]
    rfl
  none := fun hnil => absurd (append_eq_nil_iff.mp hnil).1 hne
  len := Int.natCast_nonneg _
  longest := by
    intro _
    have hle := (commonPrefix_le t.found s t.len.toNat).1
    have htake : t.found.take (commonPrefix t.found s t.len.toNat) =
        (t.found.take t.len.toNat).take (agreement (t.found.take t.len.toNat) s) := by
      rw [← commonPrefix_eq, take_take, Nat.min_eq_left hle]
    change LongestPrefix (t.found.take (commonPrefix t.found s t.len.toNat)) (ms ++ [s])
    rw [htake]
    exact (h.longest hne).snoc s

lemma tabMatches_found (line : List UInt8) (b : Nat) (hcommands : ∀ s ∈ commands, s.length < 2147483648) :
    TabFound (tabMatching commands line b) (tabMatches commands line b) := by
  induction commands using reverseRecOn with
  | nil => exact ⟨rfl, fun _ => rfl, Int.le_refl 0, fun h => absurd rfl h⟩
  | append_singleton commands s ih =>
    have hold := ih fun s' hs' => hcommands s' (mem_append_left _ hs')
    have hs := hcommands s (mem_append_right _ (mem_singleton_self s))
    rw [tabMatches_snoc, tabScan, tabMatching, filter_append, ← tabMatching]
    by_cases hmatch : strncmpEq line s b = true
    · have hfilter : [s].filter (fun s => strncmpEq line s b) = [s] := filter_cons_of_pos hmatch
      rw [if_pos hmatch, hfilter]
      by_cases hfirst : (tabMatches commands line b).nmatches = 0
      · have hnil : tabMatching commands line b = [] := by
          rw [← length_eq_zero_iff, ← hold.nmatches]
          exact hfirst
        rw [if_pos hfirst, hnil]
        exact TabFound.first hs
      have hne : tabMatching commands line b ≠ [] := by
        intro hnil
        rw [hold.nmatches, hnil] at hfirst
        exact hfirst rfl
      rw [if_neg hfirst]
      exact hold.next hne s
    have hfilter : [s].filter (fun s => strncmpEq line s b) = [] := filter_cons_of_neg hmatch
    rw [if_neg hmatch, hfilter, append_nil]
    exact hold

/-! ## The moves -/

variable {t : TabScan} {already maxlength : Nat}

lemma tabInsert_line (hless : already ≤ t.len.toNat) (hagree : line.take already = t.found.take already) :
    line.take already ++ (t.found.take t.len.toNat).drop already ++ line.drop already =
    t.found.take t.len.toNat ++ line.drop already := by
  have hsplit : t.found.take t.len.toNat =
      (t.found.take t.len.toNat).take already ++ (t.found.take t.len.toNat).drop already :=
    (take_append_drop already _).symm
  rw [take_take, Nat.min_eq_left hless, ← hagree] at hsplit
  rw [← hsplit]

lemma tabInsert_spec (hlen : t.len.toNat ≤ t.found.length) (hless : already ≤ t.len.toNat)
    (hline : already ≤ line.length) (hagree : line.take already = t.found.take already)
    (hfits : (t.len.toNat - already) + line.length < maxlength) :
    (tabInsert t line already maxlength).1.length < maxlength ∧ ∃ p,
    (p = t.found.take t.len.toNat ∨ t.nmatches = 1 ∧ p = t.found.take t.len.toNat ++ [32]) ∧
    tabInsert t line already maxlength = (p ++ line.drop already, (p.length : Int)) := by
  have hmoved := tabInsert_line hless hagree
  have hsize : (t.found.take t.len.toNat).length = t.len.toNat := length_take_of_le hlen
  rw [tabInsert, hmoved]
  by_cases hblank : t.nmatches = 1 ∧ (t.found.take t.len.toNat ++ line.drop already)[t.len.toNat]? ≠ some 32 ∧
      (t.found.take t.len.toNat ++ line.drop already).length + 1 < maxlength
  · have htake : (t.found.take t.len.toNat ++ line.drop already).take t.len.toNat = t.found.take t.len.toNat :=
      take_left' hsize
    have hdrop : (t.found.take t.len.toNat ++ line.drop already).drop t.len.toNat = line.drop already :=
      drop_left' hsize
    simp only [if_pos hblank, htake, hdrop]
    refine ⟨?_, t.found.take t.len.toNat ++ [32], .inr ⟨hblank.1, rfl⟩, ?_⟩
    · have hroom := hblank.2.2
      rw [length_append] at hroom ⊢
      rw [length_cons]
      omega
    rw [append_assoc, length_append, hsize]
    rfl
  simp only [if_neg hblank]
  refine ⟨?_, t.found.take t.len.toNat, .inl rfl, ?_⟩
  · rw [length_append, hsize, length_drop]
    omega
  · rw [hsize]

lemma take_commonPrefix (x y : List UInt8) (maxlen : Nat) :
    x.take (commonPrefix x y maxlen) = y.take (commonPrefix x y maxlen) := by
  have hle := (commonPrefix_le x y maxlen).1
  have htake := take_agreement (x.take maxlen) y
  rw [← commonPrefix_eq, take_take, Nat.min_eq_left hle] at htake
  exact htake

lemma agreement_take (line found : List UInt8) (len : Nat) :
    agreement line (found.take len) = commonPrefix line found len := by
  rw [commonPrefix_comm, commonPrefix_eq, agreement_comm]

def TabMoves (t : TabScan) (line : List UInt8) (cursor : Int) (maxlength : Nat) : Prop :=
  0 < cursor ∧ 0 < t.len ∧ (t.len.toNat - commonPrefix line t.found t.len.toNat) + line.length < maxlength

variable {cursor : Int}

lemma tabexpand_moved (h : TabMoves (tabMatches commands line cursor.toNat) line cursor maxlength) :
    tabexpand (some commands) line cursor maxlength =
      tabInsert (tabMatches commands line cursor.toNat) line
        (commonPrefix line (tabMatches commands line cursor.toNat).found
          (tabMatches commands line cursor.toNat).len.toNat) maxlength := by
  obtain ⟨hcursor, hlen, hfits⟩ := h
  simp only [tabexpand, if_neg (Int.not_le.mpr hcursor), if_neg (Int.not_le.mpr hlen), if_pos hfits]

lemma tabexpand_kept (h : ¬TabMoves (tabMatches commands line cursor.toNat) line cursor maxlength) :
    tabexpand (some commands) line cursor maxlength = (line, cursor) := by
  simp only [tabexpand]
  by_cases hcursor : cursor ≤ 0
  · exact if_pos hcursor
  rw [if_neg hcursor]
  by_cases hlen : (tabMatches commands line cursor.toNat).len ≤ 0
  · exact if_pos hlen
  rw [if_neg hlen]
  exact if_neg fun hfits => h ⟨Int.not_le.mp hcursor, Int.not_le.mp hlen, hfits⟩

lemma tabexpand_spec (h : TabMoves (tabMatches commands line cursor.toNat) line cursor maxlength) :
    (tabexpand (some commands) line cursor maxlength).1.length < maxlength ∧ ∃ p q, p =
    (tabMatches commands line cursor.toNat).found.take (tabMatches commands line cursor.toNat).len.toNat ∧
    (q = p ∨ (tabMatches commands line cursor.toNat).nmatches = 1 ∧ q = p ++ [32]) ∧
    tabexpand (some commands) line cursor maxlength = (q ++ line.drop (agreement line p), (q.length : Int)) := by
  obtain ⟨hshort, q, hq, hinsert⟩ := tabInsert_spec (tabMatches_len commands line cursor.toNat)
    (commonPrefix_le _ _ _).1 (commonPrefix_le _ _ _).2 (take_commonPrefix _ _ _) h.2.2
  rw [← tabexpand_moved h] at hshort hinsert
  refine ⟨hshort, _, q, rfl, hq, ?_⟩
  rw [agreement_take]
  exact hinsert

lemma tabexpand_bounds (commandlist : Option (List (List UInt8))) (hline : line.length < maxlength)
    (hcursor : 0 ≤ cursor ∧ cursor ≤ line.length) :
    (tabexpand commandlist line cursor maxlength).1.length < maxlength ∧
    0 ≤ (tabexpand commandlist line cursor maxlength).2 ∧
    (tabexpand commandlist line cursor maxlength).2 ≤ (tabexpand commandlist line cursor maxlength).1.length := by
  cases commandlist with
  | none => exact ⟨hline, hcursor⟩
  | some commands =>
    by_cases hmoves : TabMoves (tabMatches commands line cursor.toNat) line cursor maxlength
    · obtain ⟨hshort, p, q, _, _, hresult⟩ := tabexpand_spec hmoves
      refine ⟨hshort, ?_⟩
      rw [hresult, length_append]
      omega
    rw [tabexpand_kept hmoves]
    exact ⟨hline, hcursor⟩

/-! ## The commands -/

lemma matches_begin {p : List UInt8} (hp : LongestPrefix p (tabMatching commands line b)) : line.take b <+: p := by
  refine hp.longest _ fun s hs => ?_
  have heq : strncmpEq line s b = true := (mem_filter.mp hs).2
  rw [strncmpEq, beq_iff_eq] at heq
  rw [heq]
  exact take_prefix _ _

lemma cursor_le_longest {p : List UInt8} (hcursor : cursor ≤ line.length)
    (hp : LongestPrefix p (tabMatching commands line cursor.toNat)) : cursor ≤ p.length := by
  have hle := (matches_begin hp).length_le
  rw [length_take] at hle
  omega

def TabFits (commands : List (List UInt8)) (line : List UInt8) (cursor : Int) (maxlength : Nat) : Prop :=
  0 < cursor ∧ ∀ p, LongestPrefix p (tabMatching commands line cursor.toNat) →
    (p.length - agreement line p) + line.length < maxlength

/-- For all commands that are shorter than `2 ^ 31` bytes, a line shorter than `maxlength` and a cursor in it:
`tabexpand` completes the text before the cursor if there is any and the line has room, and else keeps the line and
the cursor. -/
theorem tabexpand_right (commands : List (List UInt8)) (line : List UInt8) (cursor : Int) (maxlength : Nat)
    (hcommands : ∀ s ∈ commands, s.length < 2147483648) (hline : line.length < maxlength)
    (hcursor : 0 ≤ cursor ∧ cursor ≤ line.length) :
    TabRight (TabFits commands line cursor maxlength) commands line cursor maxlength
      (tabexpand (some commands) line cursor maxlength) := by
  have hfound := tabMatches_found line cursor.toNat hcommands
  obtain ⟨hshort, hinside⟩ := tabexpand_bounds (some commands) hline hcursor
  by_cases hmoves : TabMoves (tabMatches commands line cursor.toNat) line cursor maxlength
  · have hne : tabMatching commands line cursor.toNat ≠ [] := by
      intro hnil
      have hzero := hfound.none hnil
      have hpos := hmoves.2.1
      omega
    have hlongest := hfound.longest hne
    obtain ⟨_, p, q, hp, hq, hresult⟩ := tabexpand_spec hmoves
    rw [← hp] at hlongest
    refine ⟨hshort, hinside, fun hno => ?_, fun _ _ => ⟨p, hlongest, ?_⟩⟩
    · refine absurd ?_ (hno.resolve_right hne)
      refine ⟨hmoves.1, fun p' hp' => ?_⟩
      have hfits := hmoves.2.2
      have hsize : p.length = (tabMatches commands line cursor.toNat).len.toNat := by
        rw [hp]
        exact length_take_of_le (tabMatches_len commands line cursor.toNat)
      rw [hp'.eq hlongest, hsize, hp, agreement_take]
      exact hfits
    rw [hresult]
    refine ⟨?_, ?_⟩
    · rw [Int.toNat_natCast, take_left, ← hfound.nmatches]
      exact hq
    · rw [Int.toNat_natCast, drop_left]
  have hkept := tabexpand_kept hmoves
  refine ⟨hshort, hinside, fun _ => hkept, fun hok hne => ?_⟩
  -- the text before the cursor matches, so the prefix is not empty
  have hlongest := hfound.longest hne
  have hpos := cursor_le_longest hcursor.2 hlongest
  have hfits := hok.2 _ hlongest
  have hsize := tabMatches_len commands line cursor.toNat
  rw [agreement_take, length_take_of_le hsize] at hfits
  rw [length_take_of_le hsize] at hpos
  have hcur := hok.1
  exact absurd ⟨hcur, by omega, hfits⟩ hmoves

def showText : List UInt8 := bytes ['s', 'h', 'o', 'w']

/-- The text `sh` is completed to `show`, with a blank behind it. -/
theorem tabexpand_right_show :
    TabRight (TabFits [showText] (showText.take 2) 2 BUFSIZE) [showText] (showText.take 2) 2 BUFSIZE
      (showText ++ [32], 5) :=
  tabexpand_right [showText] (showText.take 2) 2 BUFSIZE (by decide) (by decide) (by decide)

lemma not_tabRight {q : List UInt8} (hne : commands ≠ [])
    (hmatch : ∀ s ∈ commands, strncmpEq line s cursor.toNat = true) (hq : ∀ s ∈ commands, q <+: s)
    (hkept : tabexpand (some commands) line cursor maxlength = (line, cursor))
    (hless : (line.take cursor.toNat).length < q.length) :
    ¬TabRight True commands line cursor maxlength (tabexpand (some commands) line cursor maxlength) := by
  intro h
  have hall : tabMatching commands line cursor.toNat = commands := filter_eq_self.mpr hmatch
  obtain ⟨p, hp, hbefore, _⟩ := h.before trivial (by rw [hall]; exact hne)
  rw [hall] at hp
  have hle := (hp.longest q hq).length_le
  rw [hkept] at hbefore
  rcases hbefore with heq | ⟨_, heq⟩
  · have hsize := congrArg length heq
    dsimp only at hsize
    omega
  have hsize := congrArg length heq
  rw [length_append] at hsize
  dsimp only at hsize
  omega

lemma tabexpand_wrapped {s q : List UInt8} (hs : strncmpEq line s cursor.toNat = true)
    (hq : strncmpEq line q cursor.toNat = true) (hlen : (toInt32 s.length).toNat = 0) :
    tabexpand (some [s, q]) line cursor maxlength = (line, cursor) := by
  have hfirst : tabScan line cursor.toNat ⟨0, [], 0⟩ s = ⟨1, s, toInt32 s.length⟩ := by
    rw [tabScan, if_pos hs]
    exact if_pos rfl
  have hsecond : tabMatches [s, q] line cursor.toNat = ⟨2, s, commonPrefix s q (toInt32 s.length).toNat⟩ := by
    generalize toInt32 (s.length : Int) = len at hfirst ⊢
    change tabScan line cursor.toNat (tabScan line cursor.toNat ⟨0, [], 0⟩ s) q = _
    rw [hfirst, tabScan, if_pos hq]
    exact if_neg Nat.one_ne_zero
  have hzero : commonPrefix s q (toInt32 s.length).toNat = 0 := by
    rw [hlen, commonPrefix_eq, take_zero, agreement_nil]
  refine tabexpand_kept fun h => ?_
  have hpos := h.2.1
  rw [hsecond, hzero] at hpos
  exact Int.lt_irrefl 0 hpos

def hugeText : List UInt8 := replicate (2 + 2147483646) 115

lemma hugeText_begins : [115, 115] <+: hugeText := by
  rw [hugeText, replicate_add]
  exact prefix_append _ _

lemma hugeText_matches : strncmpEq [115] hugeText 1 = true := by
  rw [strncmpEq, hugeText, take_replicate]
  rfl

lemma hugeText_length : (toInt32 hugeText.length).toNat = 0 := by
  rw [hugeText, length_replicate]
  rfl

/-- With the cursor at the beginning, without room in the line, or behind a command whose length is no `int`, nothing
is completed. -/
theorem completion_refused :
    ¬TabRight True [showText] [] 0 BUFSIZE (tabexpand (some [showText]) [] 0 BUFSIZE) ∧
      ¬TabRight True [showText] [115, 104] 2 4 (tabexpand (some [showText]) [115, 104] 2 4) ∧
      ¬TabRight True [hugeText, [115, 115]] [115] 1 BUFSIZE
        (tabexpand (some [hugeText, [115, 115]]) [115] 1 BUFSIZE) := by
  refine ⟨?_, ?_, ?_⟩
  · exact not_tabRight (q := showText) (by decide) (by decide) (by decide) rfl (by decide)
  · exact not_tabRight (q := showText) (by decide) (by decide) (by decide) rfl (by decide)
  refine not_tabRight (q := [115, 115]) (cons_ne_nil _ _) ?_ ?_
    (tabexpand_wrapped hugeText_matches rfl hugeText_length) (by decide)
  · intro s hs
    rcases mem_cons.mp hs with rfl | hs
    · exact hugeText_matches
    rw [mem_singleton.mp hs]
    rfl
  intro s hs
  rcases mem_cons.mp hs with rfl | hs
  · exact hugeText_begins
  · exact mem_singleton.mp hs ▸ prefix_rfl

end Vde.Hist
