import Mathlib.Tactic.ByContra
import Mathlib.Tactic.SplitIfs
import Mathlib.Tactic.Tauto
import Vde.IpnBind

/-!
# Binds that fail

Each label of the ladder gives back what was taken before it, but the last two resources have no label: a network that
its protocol refuses keeps its reference of the protocol and of the message cache. `ipn_msgbuf_get` counts a reference
of an element also when its cache is NULL.
-/

namespace Vde.Ipn

def cacheRefs (mtu : Nat) : List MsgBuf → Int
  | [] => 0
  | b :: rest => if mtu = b.mtu then b.refcnt else cacheRefs mtu rest

structure BindRight (g : BindWorld) (node : Node) (r : Int × BindWorld × Node) : Prop where
  refcnt : r.1 ≠ 0 → r.2.1.refcnt = g.refcnt
  cache : r.1 ≠ 0 → cacheRefs (node.pbp.getD stdBindParms).mtu r.2.1.msgbufs =
    cacheRefs (node.pbp.getD stdBindParms).mtu g.msgbufs
  module : r.1 ≠ 0 → r.2.1.moduleRefs = g.moduleRefs
  table : r.1 ≠ 0 → r.2.1.table = g.table
  ipn : r.1 ≠ 0 → r.2.2.ipn = none

def HasElement (mtu : Nat) (alloc : Bool) (l : List MsgBuf) : Prop := alloc = true ∨ ∃ b ∈ l, mtu = b.mtu

def elementCache (mtu : Nat) (created : Option Nat) (l : List MsgBuf) : Option Nat :=
  match l.find? fun b => mtu = b.mtu with
  | some b => b.cache
  | none => created

/-- A new network comes as far as `ipn_msgbuf_get`. -/
structure ReachesCache (e : BindEnv) : Prop where
  create : e.create = 0
  wantWrite : e.wantWrite = 0
  mknod : e.mknod = 0
  network : e.network ≠ none
  connport : e.connport = true
  moduleGet : e.moduleGet = true

def TakesCache (node : Node) (e : BindEnv) (g : BindWorld) : Prop :=
  let parms := node.pbp.getD stdBindParms
  parms.flags &&& IPN_FLAG_FLEXMTU = 0 ∧ HasElement parms.mtu e.msgbuf g.msgbufs

def NullCache (node : Node) (e : BindEnv) (g : BindWorld) : Prop :=
  let parms := node.pbp.getD stdBindParms
  elementCache parms.mtu e.cache g.msgbufs = none

def FlexMtu (node : Node) : Prop := (node.pbp.getD stdBindParms).flags &&& IPN_FLAG_FLEXMTU ≠ 0

/-- The failures that keep a reference: an element without a cache, and a protocol that refuses the network. -/
def Leaves (g : BindWorld) (node : Node) : BindLookup → Prop
  | .missing e =>
    ReachesCache e ∧
      (TakesCache node e g ∧ NullCache node e g ∨
        (FlexMtu node ∨ TakesCache node e g ∧ ¬NullCache node e g) ∧ e.newnet ≠ 0)
  | .found _ _ _ => False

variable {g : BindWorld} {node : Node} {e : BindEnv} {mtu : Nat} {alloc : Bool} {created : Option Nat}

/-! ## The message cache -/

lemma ipnMsgbufGet_cache (l : List MsgBuf) :
    ((ipnMsgbufGet mtu alloc created l).1 ≠ none ↔ HasElement mtu alloc l ∧ elementCache mtu created l ≠ none) := by
  induction l with
  | nil => cases alloc <;> simp [ipnMsgbufGet, HasElement, elementCache]
  | cons b rest ih =>
    by_cases hb : mtu = b.mtu
    · simp [ipnMsgbufGet, HasElement, elementCache, hb]
    have hget : (ipnMsgbufGet mtu alloc created (b :: rest)).1 = (ipnMsgbufGet mtu alloc created rest).1 := by
      rw [ipnMsgbufGet, if_neg hb]
    have helem : HasElement mtu alloc (b :: rest) ↔ HasElement mtu alloc rest := by
      simp [HasElement, hb]
    have hcache : elementCache mtu created (b :: rest) = elementCache mtu created rest := by
      rw [elementCache, List.find?_cons_of_neg (by simpa using hb), elementCache]
    rw [hget, helem, hcache, ih]

lemma ipnMsgbufGet_refs (l : List MsgBuf) :
    (HasElement mtu alloc l → cacheRefs mtu (ipnMsgbufGet mtu alloc created l).2 = cacheRefs mtu l + 1) ∧
    (¬HasElement mtu alloc l → (ipnMsgbufGet mtu alloc created l).2 = l) := by
  induction l with
  | nil => cases alloc <;> simp [ipnMsgbufGet, HasElement, cacheRefs]
  | cons b rest ih =>
    by_cases hb : mtu = b.mtu
    · simp [ipnMsgbufGet, HasElement, cacheRefs, hb]
    have hget : (ipnMsgbufGet mtu alloc created (b :: rest)).2 = b :: (ipnMsgbufGet mtu alloc created rest).2 := by
      rw [ipnMsgbufGet, if_neg hb]
    have helem : HasElement mtu alloc (b :: rest) ↔ HasElement mtu alloc rest := by
      simp [HasElement, hb]
    have hrefs (l : List MsgBuf) : cacheRefs mtu (b :: l) = cacheRefs mtu l := by
      rw [cacheRefs, if_neg hb]
    rw [hget, helem, hrefs, hrefs]
    exact ⟨ih.1, fun h => by rw [ih.2 h]⟩

structure TakesCacheSpec (g : BindWorld) (node : Node) (e : BindEnv) (r : Bool × BindWorld) : Prop where
  ok : r.1 = true ↔ FlexMtu node ∨ TakesCache node e g ∧ ¬NullCache node e g
  taken : TakesCache node e g → cacheRefs (node.pbp.getD stdBindParms).mtu r.2.msgbufs =
    cacheRefs (node.pbp.getD stdBindParms).mtu g.msgbufs + 1
  untouched : ¬TakesCache node e g → r.2.msgbufs = g.msgbufs
  refcnt : r.2.refcnt = g.refcnt
  module : r.2.moduleRefs = g.moduleRefs
  table : r.2.table = g.table

lemma takeCache_spec (g : BindWorld) (node : Node) (e : BindEnv) :
    TakesCacheSpec g node e (takeCache (node.pbp.getD stdBindParms) e g) := by
  by_cases hflex : FlexMtu node
  · have htakes : ¬TakesCache node e g := fun h => hflex h.1
    have htest : (node.pbp.getD stdBindParms).flags &&& IPN_FLAG_FLEXMTU ≠ 0 := hflex
    rw [takeCache, if_pos htest]
    exact ⟨iff_of_true rfl (.inl hflex), fun h => absurd h htakes, fun _ => rfl, rfl, rfl, rfl⟩
  have htakes : TakesCache node e g ↔ HasElement (node.pbp.getD stdBindParms).mtu e.msgbuf g.msgbufs :=
    and_iff_right (not_not.mp hflex)
  have hcache : (ipnMsgbufGet (node.pbp.getD stdBindParms).mtu e.msgbuf e.cache g.msgbufs).1 ≠ none ↔
      TakesCache node e g ∧ ¬NullCache node e g := by
    rw [htakes]
    exact ipnMsgbufGet_cache g.msgbufs
  have hrefs := @ipnMsgbufGet_refs (node.pbp.getD stdBindParms).mtu e.msgbuf e.cache g.msgbufs
  rw [← htakes] at hrefs
  have htest : ¬(node.pbp.getD stdBindParms).flags &&& IPN_FLAG_FLEXMTU ≠ 0 := hflex
  rw [takeCache, if_neg htest]
  refine ⟨?_, hrefs.1, hrefs.2, rfl, rfl, rfl⟩
  rw [Option.isSome_iff_ne_none, hcache]
  exact ⟨.inr, fun h => h.resolve_left hflex⟩

/-! ## The ladder -/

lemma BindRight.nothing {err : Int} (hipn : node.ipn = none) : BindRight g node (err, g, node) :=
  ⟨fun _ => rfl, fun _ => rfl, fun _ => rfl, fun _ => rfl, fun _ => hipn⟩

lemma outMknodUnlock_ne_zero {err : Int} (h : err ≠ 0) : outMknodUnlock err ≠ 0 := by
  rw [outMknodUnlock]
  split
  · decide
  · exact h

lemma ipnBindNew_reached (h : ReachesCache e) :
    ∃ k, e.network = some k ∧ ipnBindNew g node e =
      (let g := { g with moduleRefs := g.moduleRefs + 1 }
        let (ok, g) := takeCache (node.pbp.getD stdBindParms) e g
        if !ok then (-ENOMEM, g.putModule, node)
        else
          let g := { g with refcnt := Function.update g.refcnt node.protocol (g.refcnt node.protocol + 1) }
          if e.newnet ≠ 0 then (outMknodUnlock e.newnet, g.putModule, node)
          else
            let g := { g with table := Function.update g.table e.bucket (k :: g.table e.bucket) }
            (0, g, { node with pbp := none, ipn := some k, bound := true })) := by
  obtain ⟨k, hk⟩ := Option.ne_none_iff_exists'.mp h.network
  have hport : ¬(!e.connport) = true := by simp [h.connport]
  have hmod : ¬(!e.moduleGet) = true := by simp [h.moduleGet]
  refine ⟨k, hk, ?_⟩
  rw [ipnBindNew, if_neg (not_not.mpr h.create), if_neg (not_not.mpr h.wantWrite), if_neg (not_not.mpr h.mknod)]
  simp only [hk, if_neg hport, if_neg hmod]

lemma ipnBindNew_unreached (h : ¬ReachesCache e) :
    (ipnBindNew g node e).1 ≠ 0 ∧ (ipnBindNew g node e).2 = (g, node) := by
  unfold ipnBindNew
  by_cases hcreate : e.create = 0
  · by_cases hwrite : e.wantWrite = 0
    · by_cases hmknod : e.mknod = 0
      · rw [if_neg (not_not.mpr hcreate), if_neg (not_not.mpr hwrite), if_neg (not_not.mpr hmknod)]
        cases hnet : e.network with
        | none => exact ⟨show -ENOMEM ≠ 0 by decide, rfl⟩
        | some k =>
          cases hport : e.connport with
          | false => exact ⟨show -ENOMEM ≠ 0 by decide, rfl⟩
          | true =>
            cases hmod : e.moduleGet with
            | false => exact ⟨show -EINVAL ≠ 0 by decide, rfl⟩
            | true => exact absurd ⟨hcreate, hwrite, hmknod, hnet ▸ Option.some_ne_none k, hport, hmod⟩ h
      rw [if_neg (not_not.mpr hcreate), if_neg (not_not.mpr hwrite), if_pos hmknod]
      exact ⟨outMknodUnlock_ne_zero hmknod, rfl⟩
    rw [if_neg (not_not.mpr hcreate), if_pos hwrite]
    exact ⟨outMknodUnlock_ne_zero hwrite, rfl⟩
  rw [if_pos hcreate]
  exact ⟨outMknodUnlock_ne_zero hcreate, rfl⟩

lemma ipnBindJoin_error (permission : Int) (isSock : Bool) (net : Option (Nat × Network))
    (h : (ipnBindJoin g node permission isSock net).1 ≠ 0) :
    (ipnBindJoin g node permission isSock net).2 = (g, node) := by
  unfold ipnBindJoin at h ⊢
  by_cases hexcl : stdBindParms.flags &&& IPN_FLAG_EXCL = 0
  · rw [if_neg (not_not.mpr hexcl)] at h ⊢
    by_cases hperm : permission = 0
    · rw [if_neg (not_not.mpr hperm)] at h ⊢
      cases isSock with
      | false => rfl
      | true =>
        cases net with
        | none => rfl
        | some found =>
          obtain ⟨k, w⟩ := found
          by_cases hclosed : w.flags &&& IPN_FLAG_TERMINATED ≠ 0 ∨ w.flags &&& IPN_FLAG_EXCL ≠ 0
          · simp only [Bool.not_true, if_neg Bool.false_ne_true, if_pos hclosed]
          simp only [Bool.not_true, if_neg Bool.false_ne_true, if_neg hclosed] at h
          exact absurd rfl h
    · rw [if_pos hperm]
  · rw [if_pos hexcl]

lemma bindNew_right_iff (hipn : node.ipn = none) :
    BindRight g node (ipnBindNew g node e) ↔ ¬Leaves g node (.missing e) := by
  by_cases hreach : ReachesCache e
  · obtain ⟨k, -, hnew⟩ := @ipnBindNew_reached g node e hreach
    rw [hnew]
    have hspec := takeCache_spec { g with moduleRefs := g.moduleRefs + 1 } node e
    obtain ⟨ok, g', hcall⟩ : ∃ ok g', takeCache (node.pbp.getD stdBindParms) e
        { g with moduleRefs := g.moduleRefs + 1 } = (ok, g') := ⟨_, _, rfl⟩
    rw [hcall] at hspec
    simp only [hcall]
    have hok : ok = true ↔ FlexMtu node ∨ TakesCache node e g ∧ ¬NullCache node e g := hspec.ok
    have hexcl : FlexMtu node → ¬TakesCache node e g := fun hflex h => hflex h.1
    have hleaves : Leaves g node (.missing e) ↔
        TakesCache node e g ∧ NullCache node e g ∨ ok = true ∧ e.newnet ≠ 0 := by
      rw [hok]
      exact and_iff_right hreach
    rw [hleaves]
    cases ok with
    | false =>
      have hnot : ¬(FlexMtu node ∨ TakesCache node e g ∧ ¬NullCache node e g) := fun h => by cases hok.mpr h
      rw [if_pos (by decide)]
      constructor
      · intro h hleft
        have htakes : TakesCache node e g := by tauto
        have hcount := h.cache (show -ENOMEM ≠ 0 by decide)
        have hmore := hspec.taken htakes
        exact absurd (hmore.symm.trans hcount) (by change cacheRefs _ g.msgbufs + 1 ≠ _; omega)
      intro hleft
      have htakes : ¬TakesCache node e g := by tauto
      have hbufs : g'.msgbufs = g.msgbufs := hspec.untouched htakes
      have hmodule : g'.moduleRefs = g.moduleRefs + 1 := hspec.module
      refine ⟨fun _ => hspec.refcnt, fun _ => ?_, fun _ => ?_, fun _ => hspec.table, fun _ => hipn⟩
      · change cacheRefs _ g'.msgbufs = _
        rw [hbufs]
      change g'.moduleRefs - 1 = g.moduleRefs
      omega
    | true =>
      rw [if_neg (by decide)]
      by_cases hnewnet : e.newnet = 0
      · rw [if_neg (not_not.mpr hnewnet)]
        refine iff_of_true ?_ (by tauto)
        exact ⟨fun h => absurd rfl h, fun h => absurd rfl h, fun h => absurd rfl h, fun h => absurd rfl h,
          fun h => absurd rfl h⟩
      rw [if_pos hnewnet]
      refine iff_of_false (fun h => ?_) (by tauto)
      have hcount := congrFun (h.refcnt (outMknodUnlock_ne_zero hnewnet)) node.protocol
      have hrefcnt : g'.refcnt = g.refcnt := hspec.refcnt
      simp only [BindWorld.putModule, Function.update_self, hrefcnt] at hcount
      omega
  · have hsame := @ipnBindNew_unreached g node e hreach
    refine iff_of_true ?_ fun h => hreach h.1
    rw [← Prod.eta (ipnBindNew g node e), hsame.2]
    exact .nothing hipn

section Runs

/-- The `ipn_bind` of the runs returns what the ladder returns, and leaves the node as that does. -/
structure BindAgrees (s : State) (n : Nat) (b : Int × State) (r : Int × BindWorld × Node) : Prop where
  value : b.1 = r.1
  node : r.1 = 0 → b.2.nodes n = some r.2.2
  failed : r.1 ≠ 0 → b.2 = s

variable {s : State} {n k : Nat}

lemma BindAgrees.refused {err : Int} (herr : err ≠ 0) : BindAgrees s n (err, s) (err, g, node) :=
  ⟨rfl, fun h => absurd h herr, fun _ => rfl⟩

lemma BindAgrees.bound {s' : State} {g' : BindWorld} {w : Network} (hipn : node.ipn = none) (hw : s'.nets k = some w) :
    BindAgrees s n (0, (ipnNodeBind s' n { node with pbp := none } (some k)).2)
      (0, g', { node with pbp := none, ipn := some k, bound := true }) := by
  refine ⟨rfl, fun _ => ?_, fun h => absurd rfl h⟩
  simp [ipnNodeBind, hipn, State.net, hw]

variable (hsock : node.sock = some .unconnected) (hipn : node.ipn = none)
  (hproto : (node.protocol : Int) < IPN_MAX_PROTO)

include hsock hipn hproto

lemma ipnBind_found {w : Network} (hw : s.nets k = some w) (permission : Int) (isSock : Bool) :
    BindAgrees s n (ipnBind s n node true true (.found permission isSock k))
      (ipnBindJoin g node permission isSock (some (k, w))) := by
  rw [ipnBind, if_neg (by decide), if_neg (by simp [hsock, hipn]), if_neg (by simp [hproto]), ipnBindJoin]
  simp only [hw, Network.terminated, bne_iff_ne]
  split_ifs with hexcl hperm
  · exact .refused (by decide)
  · exact .refused hperm
  · exact .refused (by decide)
  · exact .refused (by decide)
  · exact .bound hipn hw

lemma ipnBind_created (h : (ipnBindNew g node e).1 = 0) : ∃ k, e.network = some k ∧
    BindAgrees s n (ipnBind s n node true true (.created k)) (ipnBindNew g node e) := by
  by_cases hreach : ReachesCache e
  · obtain ⟨k, hk, hnew⟩ := @ipnBindNew_reached g node e hreach
    refine ⟨k, hk, ?_⟩
    rw [hnew] at h ⊢
    rw [ipnBind, if_neg (by decide), if_neg (by simp [hsock, hipn]), if_neg (by simp [hproto])]
    dsimp only at h ⊢
    split_ifs at h ⊢ with hcache hnewnet
    · exact absurd (show -ENOMEM = 0 from h) (by decide)
    · exact absurd h (outMknodUnlock_ne_zero hnewnet)
    · exact .bound hipn (show (s.setNet k _).nets k = _ from Function.update_self ..)
  · exact absurd h (ipnBindNew_unreached hreach).1

end Runs

/-- For every failure behind the lookup a bind that returns an error has left everything as it was, unless the message
cache has an element without a cache or the protocol refuses the new network. -/
theorem bind_right_iff (g : BindWorld) {node : Node} (hipn : node.ipn = none) (l : BindLookup) :
    BindRight g node (ipnBindFile g node l) ↔ ¬Leaves g node l := by
  cases l with
  | missing e => exact bindNew_right_iff hipn
  | found permission isSock net =>
    refine iff_of_true ?_ fun h => h
    rw [ipnBindFile]
    by_cases herr : (ipnBindJoin g node permission isSock net).1 = 0
    · exact ⟨fun h => absurd herr h, fun h => absurd herr h, fun h => absurd herr h, fun h => absurd herr h,
        fun h => absurd herr h⟩
    have hsame := ipnBindJoin_error permission isSock net herr
    rw [← Prod.eta (ipnBindJoin g node permission isSock net), hsame]
    exact .nothing hipn

def emptyWorld : BindWorld := { refcnt := fun _ => 0, msgbufs := [], moduleRefs := 0, table := fun _ => [] }

/-- Everything is granted but the new network, which the protocol refuses. -/
def refusedEnv : BindEnv where
  create := 0
  wantWrite := 0
  mknod := 0
  network := some 0
  connport := true
  moduleGet := true
  msgbuf := true
  cache := some 0
  newnet := -ENOMEM
  bucket := 0

def unboundNode : Node where
  protocol := 1
  bound := false
  shutdown := 0
  portno := IPN_PORTNO_ANY
  netdev := false
  ipn := none
  pbp := none
  sock := some .unconnected
  closed := false

theorem bind_right_iff_refused :
    BindRight emptyWorld unboundNode
      (ipnBindFile emptyWorld unboundNode (.missing { refusedEnv with connport := false })) :=
  (bind_right_iff emptyWorld rfl _).mpr fun h => absurd h.1.connport (by decide)

theorem refused_network_counts :
    ¬BindRight emptyWorld unboundNode (ipnBindFile emptyWorld unboundNode (.missing refusedEnv)) := by
  intro h
  have hcount := congrFun (h.refcnt (by decide)) 1
  exact absurd hcount (by decide)

end Vde.Ipn
