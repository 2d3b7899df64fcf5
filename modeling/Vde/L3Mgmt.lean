import Mathlib.Algebra.Ring.Int.Defs
import Vde.L3

/-!
# Management of vde_l3

The commands `ifconfig`, `route` and `tc` of the management console. A command is a text without
zero characters; the handlers cut it at blanks and read the pieces with `inet_addr`, `atoi` and
`sscanf`. They store what they have read so far before they look at the next piece.
-/

namespace Vde.L3

open Function

/-! ## Reading texts -/

/-- `index(s, c)`, with the text cut at the place found. -/
def cut (c : Char) : List Char → Option (List Char × List Char)
  | [] => none
  | x :: rest => if x = c then some ([], rest) else (cut c rest).map (fun p => (x :: p.1, p.2))

def isSpace (c : Char) : Bool := c == ' ' || (9 ≤ c.toNat && c.toNat ≤ 13)

def digitVal (base : Nat) (c : Char) : Option Nat :=
  let v :=
    if c.isDigit then c.toNat - 48
    else if 97 ≤ c.toNat ∧ c.toNat ≤ 102 then c.toNat - 87
    else if 65 ≤ c.toNat ∧ c.toNat ≤ 70 then c.toNat - 55
    else base
  if v < base then some v else none

def readDigits (base : Nat) : List Char → Nat → Nat × List Char
  | [], n => (n, [])
  | c :: rest, n =>
    match digitVal base c with
    | some v => readDigits base rest (n * base + v)
    | none => (n, c :: rest)

def strtoul : List Char → Nat × List Char
  | '0' :: x :: h :: rest =>
    if (x = 'x' ∨ x = 'X') ∧ (digitVal 16 h).isSome then readDigits 16 (h :: rest) 0
    else readDigits 8 ('0' :: x :: h :: rest) 0
  | '0' :: rest => readDigits 8 ('0' :: rest) 0
  | s => readDigits 10 s 0

/-- The loop of `inet_aton`, with the number of dots that may still come: the bytes in front of dots, the
last number and the rest. -/
def inetParts : Nat → List Char → Option (List Nat × Nat × List Char)
  | dots, s =>
    if ¬(s.headD ' ').isDigit then none
    else
      let (val, rest) := strtoul s
      if 0xFFFFFFFF < val then none
      else match dots, rest with
        | dots + 1, '.' :: rest =>
          if 255 < val then none else (inetParts dots rest).map (fun p => (val :: p.1, p.2))
        | 0, '.' :: _ => none
        | _, rest => some ([], val, rest)

/-- `inet_aton`. The last number fills the bytes that are left; behind it the text ends or a blank
stands. -/
def inetAton (s : List Char) : Option (BitVec 32) :=
  match inetParts 3 s with
  | none => none
  | some (bytes, val, rest) =>
    if rest ≠ [] ∧ ¬isSpace (rest.headD ' ') ∨ 256 ^ (4 - bytes.length) ≤ val then none
    else
      let high := bytes.foldl (fun n b => n * 256 + b) 0
      some (BitVec.ofNat 32 (high * 256 ^ (4 - bytes.length) + val))

/-- `ascii2ip`; an invalid text gives `INADDR_NONE`. -/
def ascii2ip (s : List Char) : BitVec 32 := (inetAton s).getD 0xFFFFFFFF

def scanNumber (s : List Char) : Option Int :=
  let number (s : List Char) : Option Int :=
    if (s.headD ' ').isDigit then some (readDigits 10 s 0).1 else none
  match s.dropWhile isSpace with
  | '-' :: rest => (number rest).map (fun n => -n)
  | '+' :: rest => number rest
  | rest => number rest

def clipInt (x : Int) : Int := (max (-2 ^ 63) (min x (2 ^ 63 - 1))).bmod (2 ^ 32)

def clipUnsigned (x : Int) : BitVec 32 := if x.natAbs < 2 ^ 64 then BitVec.ofInt 32 x else 0xFFFFFFFF

def scanInt (s : List Char) : Option Int := (scanNumber s).map clipInt

def scanUnsigned (s : List Char) : Option (BitVec 32) := (scanNumber s).map clipUnsigned

def atoi (s : List Char) : Int := (scanInt s).getD 0

def unicastIp (ip : BitVec 32) : BitVec 32 := if ip &&& 0xE0000000 = 0xE0000000 then 0 else ip

def validNmLoop (nm : BitVec 32) : Nat → BitVec 32 → BitVec 32
  | 0, _ => 0
  | i + 1, valid =>
    let valid := valid + (1 : BitVec 32) <<< i
    if nm = valid then nm else validNmLoop nm i valid

def validNm (nm : BitVec 32) : BitVec 32 := validNmLoop nm 32 0

def prefixLoop : Nat → Nat → BitVec 32 → BitVec 32
  | 0, _, res => res
  | n + 1, i, res => prefixLoop n (i - 1) (res + (1 : BitVec 32) <<< i)

/-- `ascii2nm`. The text is taken for a prefix length only when it is an address of zero. -/
def ascii2nm (s : List Char) : BitVec 32 :=
  let res := ascii2ip s
  if res = 0 then
    let nmval := atoi s
    validNm (if 0 < nmval ∧ nmval < 32 then prefixLoop nmval.toNat 31 0 else 0)
  else validNm res

/-! ## Commands -/

/-- What a handler comes to: it ends, with `policySet` after the last step of `tc set` and with `usage`
after an error, or it faults or does not end. -/
inductive Reply where
  | done
  | policySet (i : Nat)
  | usage
  | fault
  | hang
  deriving DecidableEq, Repr

structure Answer where
  reply : Reply
  router : Router

def getInterface (r : Router) (id : Int) : Option (Nat × Iface) :=
  firstIface (fun ifc => (ifc.id.toNat : Int) == id) r.interfaces 0

/-- `if_display`, without what it prints. -/
def ifDisplay (r : Router) (iface : List Char) : Bool :=
  if ['a', 'l', 'l'].isPrefixOf iface then true
  else if ¬['v', 'd'].isPrefixOf iface then false
  else (getInterface r (atoi (iface.drop 2))).isSome

/-- The part of `ifconfig` behind the split of its text: the address is stored before the netmask is
read. -/
def ifconfigSet (r : Router) (iface addr : List Char) (nm : Option (List Char)) : Answer :=
  if ¬['v', 'd'].isPrefixOf iface then ⟨.usage, r⟩
  else match getInterface r (atoi (iface.drop 2)) with
    | none => ⟨.usage, r⟩
    | some (i, pi) =>
      let tmp := unicastIp (ascii2ip addr)
      if tmp = 0 then ⟨.usage, r⟩
      else
        let pi := { pi with ipaddr := tmp }
        let r := { r with interfaces := r.interfaces.set i pi }
        match nm with
        | none => ⟨.done, r⟩
        | some nm =>
          let tmp := ascii2nm nm
          if tmp = 0 then ⟨.usage, r⟩
          else ⟨.done, { r with interfaces := r.interfaces.set i { pi with nm := tmp } }⟩

/-- The pieces of an `ifconfig` command with an address: interface, address and, behind a word that is
not looked at, netmask. `none` in the last place is a command that ends after that word. -/
def ifconfigArgs (s : List Char) : Option (List Char × List Char × Option (Option (List Char))) :=
  (cut ' ' s).map (fun p =>
    match cut ' ' p.2 with
    | none => (p.1, p.2, some none)
    | some (addr, nmtag) => (p.1, addr, (cut ' ' nmtag).map (fun q => some q.2)))

def ifconfig (r : Router) (s : List Char) : Answer :=
  if s.length = 1 then ⟨.done, r⟩
  else match ifconfigArgs s.dropLast with
    | none => if ifDisplay r s.dropLast then ⟨.done, r⟩ else ⟨.usage, r⟩
    | some (_, _, none) => ⟨.usage, r⟩
    | some (iface, addr, some nm) => ifconfigSet r iface addr nm

def updateRoute (new : Route) : List Route → Option (List Route)
  | [] => none
  | pr :: rest =>
    if new.network = pr.network ∧ new.nm = pr.nm then some ({ pr with gw := new.gw } :: rest)
    else (updateRoute new rest).map (fun rest => pr :: rest)

def listTag : List Char := ['l', 'i', 's', 't']
def defaultTag : List Char := ['d', 'e', 'f', 'a', 'u', 'l', 't', ' ', 'g', 'w', ' ']
def netTag : List Char := ['n', 'e', 't', ' ']

/-- The part of `route` behind `net`. The search for a route of the same network goes through the last `next`
where it finds none. -/
def routeNet (r : Router) (s : List Char) : Answer :=
  match cut '/' s with
  | none => ⟨.usage, r⟩
  | some (addr, nm) =>
    match cut ':' nm with
    | none => ⟨.usage, r⟩
    | some (nm, gw) =>
      let new : Route :=
        { network := unicastIp (ascii2ip addr), gw := unicastIp (ascii2ip gw), nm := ascii2nm nm }
      match updateRoute new r.routeTable with
      | some routes => ⟨.done, { r with routeTable := routes }⟩
      | none =>
        match addRoute r new with
        | none => ⟨.fault, r⟩
        | some r => ⟨.done, r⟩

/-- `route`. The listing goes through the whole table and reads the interface of the default gateway without
a check. -/
def route (r : Router) (s : List Char) : Answer :=
  if s.length = 1 then ⟨.usage, r⟩
  else if s.length = 5 ∧ listTag.isPrefixOf s ∧
      (r.routeWild = true ∨ r.defaultGw ≠ 0 ∧ isNeightbor r r.defaultGw = none) then
    ⟨.fault, r⟩
  else if defaultTag.isPrefixOf s then
    let gw := unicastIp (ascii2ip (s.drop 11))
    ⟨if gw = 0 then .usage else .done, { r with defaultGw := gw }⟩
  else if netTag.isPrefixOf s then routeNet r (s.drop 4)
  else ⟨.done, r⟩

/-! ## Policies -/

def Policy.name : Policy → List Char
  | .ufifo => ['u', 'f', 'i', 'f', 'o']
  | .pfifo => ['p', 'f', 'i', 'f', 'o']
  | .bfifo => ['b', 'f', 'i', 'f', 'o']
  | .tbf => ['t', 'b', 'f']

/-- What the system gives to a `tc` command: the module of each name, if its library can be loaded, the
time, and the old contents of allocated memory. -/
structure TcEnv where
  dlopen : List Char → Option Policy
  now : Time
  garbage : TcPriv

/-- What an initialisation does to the interface. `fault` is a null pointer in `strncmp`. -/
inductive InitResult where
  | ok (vif : Iface)
  | failed (vif : Iface)
  | fault

def ufifoInit (vif : Iface) (args : List Char) : InitResult :=
  let vif := { vif with policyName := .ufifo }
  if args.length = 0 then .ok vif else .failed vif

def limitTag : List Char := ['l', 'i', 'm', 'i', 't']
def rateTag : List Char := ['r', 'a', 't', 'e']
def latencyTag : List Char := ['l', 'a', 't', 'e', 'n', 'c', 'y']

def fifoInit (name : Policy) (vif : Iface) (args : List Char) : InitResult :=
  if args.length < 7 ∨ ¬(limitTag ++ [' ']).isPrefixOf args then .failed vif
  else match scanUnsigned (args.drop 6) with
    | none => .failed vif
    | some limit =>
      let priv := update (update (update vif.tcPriv qlenAt 0) limitAt limit) droppedAt 0
      .ok { vif with policyName := name, tcPriv := priv }

def pfifoInit : Iface → List Char → InitResult := fifoInit .pfifo

def bfifoInit : Iface → List Char → InitResult := fifoInit .bfifo

def tbfRate (text : List Char) (rate : BitVec 32) : BitVec 32 :=
  if 'K' ∈ text then rate * 1000 else if 'M' ∈ text then rate * 1000000 else rate

/-- The private data that `tbf_init` stores. `limit` is set for a latency of zero only if it was given. -/
def tbfPriv (env : TcEnv) (rate latency : BitVec 32) (limit : Option (BitVec 32)) : TcPriv :=
  let priv := env.garbage
  let priv := match limit with
    | some limit => update priv limitAt limit
    | none => priv
  let priv := update (update priv rateAt rate) mtuAt 1000
  let priv := if latency ≠ 0 then update priv limitAt (rate / 1000 * latency) else priv
  let priv := update priv latencyAt latency
  let priv := storeTime priv lastOutAt env.now
  let priv := update (update (update priv qlenAt 0) tbfDroppedAt 0) bytesOutAt 0
  storeTime priv deltaAt ⟨0, ((1000000000 : BitVec 32) / rate).toNat⟩

def tbfInit (env : TcEnv) (vif : Iface) (args : List Char) : InitResult :=
  if args.length < 6 ∨ ¬rateTag.isPrefixOf args then .failed vif
  else match cut ' ' args with
    | none => .failed vif
    | some (_, args) =>
      match scanUnsigned args with
      | none => .failed vif
      | some rate =>
        let rateText := ((cut ' ' args).map Prod.fst).getD args
        let rate := tbfRate rateText rate
        if rate < 5000 then .failed vif
        else
          let rate := rate >>> 3
          match cut ' ' args with
          | none => .fault
          | some (_, args) =>
            let number := (cut ' ' args).bind (fun p => scanUnsigned p.2)
            if latencyTag.isPrefixOf args then
              match number with
              | none => .failed vif
              | some latency => .ok { vif with policyName := .tbf, tcPriv := tbfPriv env rate latency none }
            else if limitTag.isPrefixOf args then
              match number with
              | none => .failed vif
              | some limit => .ok { vif with policyName := .tbf, tcPriv := tbfPriv env rate 0 (some limit) }
            else .failed vif

def policyInit (env : TcEnv) (pp : Policy) (vif : Iface) (args : List Char) : InitResult :=
  match pp with
  | .ufifo => ufifoInit vif args
  | .pfifo => pfifoInit vif args
  | .bfifo => bfifoInit vif args
  | .tbf => tbfInit env vif args

/-- `policy_register` on a list that is not empty. A policy that is in the list already becomes its last
element, or points to itself if it was the last one. -/
def policyRegister (new : Policy) (r : Router) : Router :=
  if new ∈ r.modlist then
    if r.modlist.getLast? = some new then { r with modloop := true }
    else { r with modlist := r.modlist.takeWhile (fun p => p ≠ new) ++ [new] }
  else { r with modlist := r.modlist ++ [new] }

def getpolicy (env : TcEnv) (r : Router) (name : List Char) : Option (Option Policy × Router) :=
  match r.modlist.find? (fun p => p.name = name.take 255) with
  | some p => some (some p, r)
  | none =>
    if r.modloop then none
    else match env.dlopen name with
      | none => some (none, r)
      | some new => some (some new, policyRegister new r)

def setInterfacePolicy (vif : Iface) (rp : Policy) : Iface := { vif with policy := rp }

def tcApply (env : TcEnv) (r : Router) (i : Nat) (pi : Iface) (pp : Policy) (args : List Char) : Answer :=
  match policyInit env pp (setInterfacePolicy pi pp) args with
  | .ok vif => ⟨.policySet i, { r with interfaces := r.interfaces.set i vif }⟩
  | .failed vif => ⟨.usage, { r with interfaces := r.interfaces.set i vif }⟩
  | .fault => ⟨.fault, r⟩

def tcArgs (s : List Char) : List Char × Option (List Char × List Char) :=
  match cut ' ' s with
  | none => (s, none)
  | some (iface, policy) => (iface, some ((cut ' ' policy).getD (policy, [])))

def tcSet (env : TcEnv) (r : Router) (s : List Char) : Answer :=
  let (iface, rest) := tcArgs s
  match ['v', 'd'].isPrefixOf iface, scanInt (iface.drop 2), rest with
  | true, some ifnum, some (policy, args) =>
    let pi := getInterface r ifnum
    if policy.length < 1 ∨ r.interfaces ≠ [] ∧ pi = none then ⟨.usage, r⟩
    else match getpolicy env r policy with
      | none => ⟨.hang, r⟩
      | some (none, r) => ⟨.usage, r⟩
      | some (some pp, r) =>
        match pi with
        | none => ⟨.fault, r⟩
        | some (i, pi) => tcApply env r i pi pp args
  | true, some _, none => ⟨.fault, r⟩
  | _, _, _ => ⟨.usage, r⟩

def trafficControl (env : TcEnv) (r : Router) (s : List Char) : Answer :=
  let s := s.dropLast
  if s.length = 2 ∧ ['l', 's'].isPrefixOf s then ⟨.done, r⟩
  else if 4 < s.length ∧ ['s', 'e', 't'].isPrefixOf s then tcSet env r (s.drop 4)
  else ⟨.usage, r⟩

inductive Command where
  | ifconfig
  | route
  | tc
  deriving DecidableEq, Repr

def handle (env : TcEnv) (r : Router) (s : List Char) : Command → Answer
  | .ifconfig => ifconfig r s
  | .route => route r s
  | .tc => trafficControl env r s

end Vde.L3
