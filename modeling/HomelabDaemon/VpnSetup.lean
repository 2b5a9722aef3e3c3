import HomelabDaemon.Iproute.Network
import Mathlib.Data.Fintype.Pi

/-!
# VPN setup

The commands that build the named namespace, the tunnel and the veth pair, run again over
whatever earlier runs left. `ip` is taken to fail on a link that exists, and names are opaque.
-/

namespace HomelabDaemon
open Iproute

namespace VpnSetup

structure Params where
  netnsName : String
  interface : String
  address : String
  dns : String
  peerPublicKey : String
  peerEndpoint : String
  allowedIPs : String
  privateKeyFile : String
  vethHostIP : String
  vethNetnsIP : String

def buildSetupCommands (p : Params) : List (List String) :=
  let ns := p.netnsName
  let wg := p.interface
  [["ip", "netns", "add", ns],
    ["ip", "link", "add", wg, "type", "wireguard"],
    ["ip", "link", "set", wg, "netns", ns],
    ["ip", "netns", "exec", ns, "wg", "set", wg, "private-key", p.privateKeyFile,
      "peer", p.peerPublicKey, "endpoint", p.peerEndpoint, "allowed-ips", p.allowedIPs],
    ["ip", "netns", "exec", ns, "ip", "address", "add", p.address, "dev", wg],
    ["ip", "netns", "exec", ns, "ip", "link", "set", wg, "up"],
    ["ip", "netns", "exec", ns, "ip", "route", "add", "default", "dev", wg],
    ["ip", "netns", "exec", ns, "ip", "link", "set", "lo", "up"],
    ["ip", "link", "add", "veth-host", "type", "veth", "peer", "name", "veth-vpn"],
    ["ip", "link", "set", "veth-vpn", "netns", ns],
    ["ip", "address", "add", p.vethHostIP, "dev", "veth-host"],
    ["ip", "link", "set", "veth-host", "up"],
    ["ip", "netns", "exec", ns, "ip", "address", "add", p.vethNetnsIP, "dev", "veth-vpn"],
    ["ip", "netns", "exec", ns, "ip", "link", "set", "veth-vpn", "up"]]

structure Peer where
  privateKeyFile : String
  publicKey : String
  endpoint : String
  allowedIPs : String
  deriving DecidableEq

abbrev Net := Network String String String Peer

def actionOf : List String → Option (Action String String Peer)
  | ["ip", "link", "add", name, "type", "wireguard"] => some (.addWireguard name)
  | ["ip", "link", "add", name, "type", "veth", "peer", "name", peer] => some (.addVeth name peer)
  | ["ip", "link", "set", dev, "up"] => some (.setUp dev)
  | ["ip", "address", "add", addr, "dev", dev] => some (.addAddress addr dev)
  | ["ip", "route", "add", "default", "dev", dev] => some (.addRoute dev)
  | ["wg", "set", dev, "private-key", file, "peer", key, "endpoint", endpoint, "allowed-ips", ips] =>
    some (.setPeer dev ⟨file, key, endpoint, ips⟩)
  | _ => none

def commandOf : List String → Option (Command String String String Peer)
  | ["ip", "netns", "add", ns] => some (.addNetns ns)
  | ["ip", "link", "set", dev, "netns", ns] => some (.setNetns dev ns)
  | "ip" :: "netns" :: "exec" :: ns :: argv => (actionOf argv).map (.inside ns)
  | argv => (actionOf argv).map .outside

/-- A failure is logged, and the next command runs. -/
def exec (net : Net) (argv : List String) : Net :=
  match commandOf argv with
  | some command => net.run "lo" command
  | none => net

def setup (p : Params) (net : Net) : Net := (buildSetupCommands p).foldl exec net

/-- A setup that is cut after `n` commands. -/
def setupCut (p : Params) (n : Nat) (net : Net) : Net := ((buildSetupCommands p).take n).foldl exec net

inductive Reachable (p : Params) : Net → Prop
  | empty : Reachable p (.empty "lo")
  | cut (n : Nat) {net : Net} : Reachable p net → Reachable p (setupCut p n net)

/-! ### The same with a few names -/

inductive Role where
  | loopback | tunnel | host | inner
  deriving DecidableEq

instance : Fintype Role where
  elems := {.loopback, .tunnel, .host, .inner}
  complete role := by cases role <;> decide

abbrev Sketch := Network Unit Role Role Unit

def commands (wg : Role) : List (Command Unit Role Role Unit) :=
  [.addNetns (), .outside (.addWireguard wg), .setNetns wg (),
    .inside () (.setPeer wg ()), .inside () (.addAddress .tunnel wg), .inside () (.setUp wg),
    .inside () (.addRoute wg), .inside () (.setUp .loopback),
    .outside (.addVeth .host .inner), .setNetns .inner (),
    .outside (.addAddress .host .host), .outside (.setUp .host),
    .inside () (.addAddress .inner .inner), .inside () (.setUp .inner)]

namespace Params

def role (p : Params) : Role :=
  if p.interface = "lo" then .loopback
  else if p.interface = "veth-host" then .host
  else if p.interface = "veth-vpn" then .inner
  else .tunnel

def name (p : Params) : Role → String
  | .loopback => "lo"
  | .tunnel => if p.role = .tunnel then p.interface else "wg0"
  | .host => "veth-host"
  | .inner => "veth-vpn"

def addr (p : Params) : Role → String
  | .loopback => ""
  | .tunnel => p.address
  | .host => p.vethHostIP
  | .inner => p.vethNetnsIP

def peer (p : Params) : Peer where
  privateKeyFile := p.privateKeyFile
  publicKey := p.peerPublicKey
  endpoint := p.peerEndpoint
  allowedIPs := p.allowedIPs

theorem name_role (p : Params) : p.name p.role = p.interface := by
  unfold name
  cases found : p.role <;> unfold role at found <;> split_ifs at found <;> simp_all

theorem name_inj (p : Params) : Function.Injective p.name := by
  intro a b same
  have apart : p.role = .tunnel → p.interface ≠ "lo" ∧ p.interface ≠ "veth-host" ∧ p.interface ≠ "veth-vpn" := by
    unfold role
    split_ifs <;> simp_all
  by_cases own : p.role = .tunnel
  · obtain ⟨loopback, host, inner⟩ := apart own
    cases a <;> cases b <;> simp_all [name, eq_comm]
  · cases a <;> cases b <;> simp_all [name]

def naming (p : Params) : Renaming Unit Role Role Unit String String String Peer where
  space _ := p.netnsName
  name := p.name
  addr := p.addr
  peer _ := p.peer
  space_inj _ _ _ := rfl
  name_inj := p.name_inj

end Params

theorem commandOf_setup (p : Params) :
    (buildSetupCommands p).map commandOf = (commands p.role).map fun command => some (command.rename p.naming) := by
  have named := p.name_role
  simp only [commands, List.map_cons, List.map_nil, Command.rename, Action.rename]
  rw [show p.naming.name p.role = p.interface from named]
  rfl

theorem setupCut_rename (p : Params) (n : Nat) (net : Sketch) :
    setupCut p n (net.rename p.naming) = (net.runAll .loopback ((commands p.role).take n)).rename p.naming := by
  have parsed : ((buildSetupCommands p).take n).map commandOf
      = (((commands p.role).take n).map (Command.rename p.naming)).map some := by
    rw [List.map_take, commandOf_setup, ← List.map_take, List.map_map]
    rfl
  rw [← rename_runAll, setupCut]
  change _ = List.foldl (Network.run "lo") _ _
  generalize net.rename p.naming = net
  generalize ((commands p.role).take n).map (Command.rename p.naming) = renamed at parsed
  generalize (buildSetupCommands p).take n = argvs at parsed
  induction argvs generalizing renamed net with
  | nil =>
    cases renamed with
    | nil => rfl
    | cons command renamed => cases parsed
  | cons argv argvs ih =>
    cases renamed with
    | nil => cases parsed
    | cons command renamed =>
      obtain ⟨first, rest⟩ := List.cons.inj parsed
      rw [List.foldl_cons, List.foldl_cons, ← ih _ _ rest, exec, first]

/-! ### All that earlier runs leave -/

theorem sketch_ext {a b : Sketch} (root : a.root.links = b.root.links) (route : a.root.route = b.root.route)
    (links : (a.named ()).map (·.links) = (b.named ()).map (·.links))
    (inside : (a.named ()).map (·.route) = (b.named ()).map (·.route)) : a = b := by
  obtain ⟨⟨_, _⟩, named⟩ := a
  obtain ⟨⟨_, _⟩, named'⟩ := b
  obtain rfl : named = named' := by
    funext ns
    cases found : named ns <;> cases found' : named' ns <;> simp_all [Namespace.ext_iff]
  cases root
  cases route
  rfl

instance : DecidableEq Sketch := fun a b =>
  decidable_of_iff (a.root.links = b.root.links ∧ a.root.route = b.root.route ∧
    (a.named ()).map (·.links) = (b.named ()).map (·.links) ∧ (a.named ()).map (·.route) = (b.named ()).map (·.route))
    ⟨fun ⟨root, route, links, inside⟩ => sketch_ext root route links inside, by rintro rfl; simp⟩

def bare : Sketch := .empty .loopback

/-- The first `m` commands, after a run that got as far as the tunnel's move if `again`. -/
def left (wg : Role) (again : Bool) (m : Nat) : Sketch :=
  (if again then bare.runAll .loopback ((commands wg).take 3) else bare).runAll .loopback ((commands wg).take m)

theorem left_cut : ∀ (wg : Role) (again : Bool) (m n : Fin 15), ∃ again',
    (left wg again m).runAll .loopback ((commands wg).take n) = left wg again' (max m n) := by
  decide +kernel

theorem reachable_left {p : Params} {net : Net} (reached : Reachable p net) :
    ∃ (again : Bool) (m : Fin 15), net = (left p.role again m).rename p.naming := by
  induction reached with
  | empty => exact ⟨false, 0, (rename_empty p.naming .loopback).symm⟩
  | cut n _ ih =>
    obtain ⟨again, m, rfl⟩ := ih
    have bounded : (commands p.role).take n = (commands p.role).take (min n 14) := by
      rw [show (14 : Nat) = (commands p.role).length from rfl, ← List.take_take, List.take_length]
    obtain ⟨again', moved⟩ := left_cut p.role again m ⟨min n 14, by omega⟩
    refine ⟨again', max m ⟨min n 14, by omega⟩, ?_⟩
    rw [setupCut_rename, bounded, moved]
    rfl

/-- The tunnel is not in its namespace yet, or something else has its name outside. -/
def opens {K N A W : Type} (ns : K) (wg : N) (net : Network K N A W) : Bool :=
  (net.named ns).all (fun space => (space.links wg).isNone) || (net.root.links wg).any
    (fun link => link.kind ≠ .wireguard)

def settled (wg : Role) (net : Sketch) : Sketch := net.runAll .loopback (commands wg)

theorem opens_settles : ∀ (wg : Role) (again : Bool) (m : Fin 15), wg ≠ .inner → opens () wg (left wg again m) →
    settled wg (left wg again m) = settled wg bare := by
  decide +kernel

theorem settled_outside : ∀ (wg name : Role), wg ≠ .inner → ((settled wg bare).kindOf name).isSome →
    name = .loopback ∨ name = .host := by
  decide +kernel

theorem settles_opens : ∀ (wg : Role) (again : Bool) (m : Fin 15),
    (∀ name, (settled wg (left wg again m)).kindOf name = (settled wg bare).kindOf name ∧
      (((settled wg (left wg again m)).kindOf name).isSome → name = .loopback ∨ name = .host)) →
    wg ≠ .inner ∧ opens () wg (left wg again m) := by
  decide +kernel

theorem opens_rename {K₀ N₀ A₀ W₀ K N A W : Type} [DecidableEq A] (r : Renaming K₀ N₀ A₀ W₀ K N A W) (ns : K₀)
    (wg : N₀) (net : Network K₀ N₀ A₀ W₀) : opens (r.space ns) (r.name wg) (net.rename r) = opens ns wg net := by
  have root : (net.rename r).root.links (r.name wg) = (net.root.links wg).map (Link.rename r) :=
    rename_links r net.root wg
  unfold opens
  rw [rename_named, root]
  cases net.named ns <;> cases net.root.links wg <;> simp [Link.rename]

theorem setup_rename (p : Params) (net : Sketch) :
    setup p (net.rename p.naming) = (settled p.role net).rename p.naming := by
  have whole := setupCut_rename p 14 net
  exact whole

theorem role_inner (p : Params) : p.role = .inner ↔ p.interface = "veth-vpn" := by
  unfold Params.role
  split_ifs with loopback host inner <;> simp_all

section Claim
variable {p : Params} {net : Net}

/-- The network is the one a first setup makes, with nothing but the host's end outside. -/
def Settles (p : Params) (net : Net) : Prop :=
  setup p net = setup p (.empty "lo") ∧
    ∀ name, ((setup p net).root.links name).isSome → name = "lo" ∨ name = "veth-host"

def Opens (p : Params) (net : Net) : Prop := p.interface ≠ "veth-vpn" ∧ opens p.netnsName p.interface net

/-- Of all that earlier runs leave, setup settles what lets the tunnel move, and nothing else. -/
theorem settles_iff (reached : Reachable p net) : Settles p net ↔ Opens p net := by
  obtain ⟨again, m, rfl⟩ := reachable_left reached
  have free : Opens p ((left p.role again m).rename p.naming) ↔
      p.role ≠ .inner ∧ opens () p.role (left p.role again m) := by
    rw [Opens, ← opens_rename p.naming, Ne, Ne, role_inner, show p.naming.name p.role = p.interface from p.name_role]
    rfl
  have first : setup p (.empty "lo") = (settled p.role bare).rename p.naming := by
    rw [← setup_rename, bare, rename_empty]
    rfl
  rw [free, Settles, first, setup_rename]
  constructor
  · rintro ⟨same, outside⟩
    apply settles_opens
    intro name
    have kinds := congrArg (fun net => net.kindOf (p.naming.name name)) same
    simp only [kindOf_rename] at kinds
    refine ⟨kinds, fun there => ?_⟩
    rw [← kindOf_rename p.naming, Network.kindOf, Option.isSome_map] at there
    rcases outside _ there with lo | host
    · exact .inl (p.name_inj lo)
    · exact .inr (p.name_inj host)
  · rintro ⟨apart, opens⟩
    rw [opens_settles p.role again m apart opens]
    refine ⟨rfl, fun name there => ?_⟩
    rw [← Option.isSome_map (f := Link.kind)] at there
    obtain ⟨role, rfl⟩ := kindOf_named p.naming there
    have there : ((settled p.role bare).kindOf role).isSome := by
      rw [← kindOf_rename p.naming]
      exact there
    rcases settled_outside p.role role apart there with rfl | rfl
    · exact .inl rfl
    · exact .inr rfl

end Claim

def sample : Params where
  netnsName := "vpn"
  interface := "wg0"
  address := "10.2.0.2/32"
  dns := "10.2.0.1"
  peerPublicKey := "PUB=="
  peerEndpoint := "1.2.3.4:51820"
  allowedIPs := "0.0.0.0/0"
  privateKeyFile := "/run/secrets/vpn/WG_PRIVATE_KEY"
  vethHostIP := "10.200.0.1/30"
  vethNetnsIP := "10.200.0.2/30"

/-- A run that made the tunnel and did not move it. -/
theorem settles_iff_unmoved : Reachable sample (setupCut sample 2 (.empty "lo")) ∧
    (Settles sample (setupCut sample 2 (.empty "lo")) ↔ Opens sample (setupCut sample 2 (.empty "lo"))) ∧
    Opens sample (setupCut sample 2 (.empty "lo")) := by
  have reached : Reachable sample (setupCut sample 2 (.empty "lo")) := .cut 2 .empty
  exact ⟨reached, settles_iff reached, by decide, by decide +kernel⟩

/-- A second setup leaves a second tunnel outside the namespace. -/
theorem second_setup_strays : Reachable sample (setup sample (.empty "lo")) ∧
    ¬ Settles sample (setup sample (.empty "lo")) ∧
    setup sample (setup sample (.empty "lo")) ≠ setup sample (.empty "lo") := by
  have stray : ((setup sample (setup sample (.empty "lo"))).root.links "wg0").isSome = true := by decide +kernel
  have first : ((setup sample (.empty "lo")).root.links "wg0").isSome = false := by decide +kernel
  refine ⟨.cut 14 .empty, fun ⟨_, outside⟩ => ?_, fun same => ?_⟩
  · rcases outside "wg0" stray with lo | host
    · exact absurd lo (by decide)
    · exact absurd host (by decide)
  · rw [same, first] at stray
    cases stray

end VpnSetup

end HomelabDaemon
