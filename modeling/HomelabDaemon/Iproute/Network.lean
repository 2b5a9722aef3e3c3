import Mathlib.Data.Finset.Image
import Mathlib.Data.Fintype.Basic
import Mathlib.Logic.Function.Basic

/-!
# Links and network namespaces

What `ip` and `wg` do to links, addresses, peers and the default route. A command that fails
leaves the network as it is. The commands look at names only to compare them, so they commute
with an injective renaming; what holds of a few names thus holds of any.
-/

namespace Iproute

inductive Kind where
  | loopback | wireguard | veth
  deriving DecidableEq

/-- A link, with the peer that was set last. -/
structure Link (A W : Type) where
  kind : Kind
  addrs : Finset A := ∅
  up : Bool := false
  peer : Option W := none
  deriving DecidableEq

/-- `route` is the device of the default route. -/
@[ext]
structure Namespace (N A W : Type) where
  links : N → Option (Link A W)
  route : Option N := none

structure Network (K N A W : Type) where
  root : Namespace N A W
  named : K → Option (Namespace N A W)

inductive Action (N A W : Type) where
  | addWireguard (name : N)
  | addVeth (name peer : N)
  | setUp (dev : N)
  | addAddress (addr : A) (dev : N)
  | addRoute (dev : N)
  | setPeer (dev : N) (peer : W)

/-- `inside` is `ip netns exec`. -/
inductive Command (K N A W : Type) where
  | addNetns (ns : K)
  | setNetns (dev : N) (ns : K)
  | outside (act : Action N A W)
  | inside (ns : K) (act : Action N A W)

variable {K N A W K₀ N₀ A₀ W₀ : Type}

section Run
variable [DecidableEq K] [DecidableEq N] [DecidableEq A]

namespace Namespace

def put (ns : Namespace N A W) (name : N) (link : Option (Link A W)) : Namespace N A W :=
  { ns with links := Function.update ns.links name link }

/-- A link that leaves takes the default route over it along. -/
def drop (ns : Namespace N A W) (name : N) : Namespace N A W where
  links := Function.update ns.links name none
  route := if ns.route = some name then none else ns.route

def run (ns : Namespace N A W) : Action N A W → Namespace N A W
  | .addWireguard name =>
    match ns.links name with
    | none => ns.put name (some { kind := .wireguard })
    | some _ => ns
  | .addVeth name peer =>
    match ns.links name, ns.links peer with
    | none, none => (ns.put name (some { kind := .veth })).put peer (some { kind := .veth })
    | _, _ => ns
  | .setUp dev =>
    match ns.links dev with
    | none => ns
    | some link => ns.put dev (some { link with up := true })
  | .addAddress addr dev =>
    match ns.links dev with
    | none => ns
    | some link => ns.put dev (some { link with addrs := insert addr link.addrs })
  | .addRoute dev =>
    match ns.links dev, ns.route with
    | some link, none => if link.up then { ns with route := some dev } else ns
    | _, _ => ns
  | .setPeer dev peer =>
    match ns.links dev with
    | none => ns
    | some link => if link.kind = .wireguard then ns.put dev (some { link with peer := some peer }) else ns

def fresh (lo : N) : Namespace N A W where
  links := Function.update (fun _ => none) lo (some { kind := .loopback })

end Namespace

namespace Network

def putNamed (net : Network K N A W) (ns : K) (space : Namespace N A W) : Network K N A W :=
  { net with named := Function.update net.named ns (some space) }

/-- A link that changes its namespace loses its addresses and goes down. -/
def run (lo : N) (net : Network K N A W) : Command K N A W → Network K N A W
  | .addNetns ns =>
    match net.named ns with
    | none => net.putNamed ns (.fresh lo)
    | some _ => net
  | .setNetns dev ns =>
    match net.root.links dev, net.named ns with
    | some link, some space =>
      match space.links dev with
      | none =>
        { net with root := net.root.drop dev }.putNamed ns (space.put dev (some { link with addrs := ∅, up := false }))
      | some _ => net
    | _, _ => net
  | .outside act => { net with root := net.root.run act }
  | .inside ns act =>
    match net.named ns with
    | none => net
    | some space => net.putNamed ns (space.run act)

/-- No link but the loopback, and no named namespace. -/
def empty (lo : N) : Network K N A W where
  root := .fresh lo
  named := fun _ => none

def kindOf (net : Network K N A W) (name : N) : Option Kind := (net.root.links name).map (·.kind)

def runAll (lo : N) (net : Network K N A W) (commands : List (Command K N A W)) : Network K N A W :=
  commands.foldl (run lo) net

end Network

end Run

/-! ### Renaming -/

/-- Names for spaces and links, which must not clash, and for addresses and peers, which may. -/
structure Renaming (K₀ N₀ A₀ W₀ K N A W : Type) where
  space : K₀ → K
  name : N₀ → N
  addr : A₀ → A
  peer : W₀ → W
  space_inj : Function.Injective space
  name_inj : Function.Injective name

section Rename
variable (r : Renaming K₀ N₀ A₀ W₀ K N A W) [DecidableEq A]

def Link.rename (link : Link A₀ W₀) : Link A W where
  kind := link.kind
  addrs := link.addrs.image r.addr
  up := link.up
  peer := link.peer.map r.peer

noncomputable def Namespace.rename (ns : Namespace N₀ A₀ W₀) : Namespace N A W where
  links := Function.extend r.name (fun n => (ns.links n).map (Link.rename r)) fun _ => none
  route := ns.route.map r.name

noncomputable def Network.rename (net : Network K₀ N₀ A₀ W₀) : Network K N A W where
  root := net.root.rename r
  named := Function.extend r.space (fun k => (net.named k).map (Namespace.rename r)) fun _ => none

def Action.rename : Action N₀ A₀ W₀ → Action N A W
  | .addWireguard name => .addWireguard (r.name name)
  | .addVeth name peer => .addVeth (r.name name) (r.name peer)
  | .setUp dev => .setUp (r.name dev)
  | .addAddress addr dev => .addAddress (r.addr addr) (r.name dev)
  | .addRoute dev => .addRoute (r.name dev)
  | .setPeer dev peer => .setPeer (r.name dev) (r.peer peer)

def Command.rename : Command K₀ N₀ A₀ W₀ → Command K N A W
  | .addNetns ns => .addNetns (r.space ns)
  | .setNetns dev ns => .setNetns (r.name dev) (r.space ns)
  | .outside act => .outside (act.rename r)
  | .inside ns act => .inside (r.space ns) (act.rename r)

end Rename

theorem update_extend {α β γ : Type} [DecidableEq α] [DecidableEq β] {f : α → β} (inj : Function.Injective f)
    (g : α → γ) (e : β → γ) (a : α) (v : γ) :
    Function.update (Function.extend f g e) (f a) v = Function.extend f (Function.update g a v) e := by
  funext b
  by_cases named : ∃ a', f a' = b
  · obtain ⟨a', rfl⟩ := named
    rw [inj.extend_apply]
    by_cases same : a' = a
    · subst same
      simp
    · rw [Function.update_of_ne (inj.ne same), Function.update_of_ne same, inj.extend_apply]
  · have other : b ≠ f a := fun same => named ⟨a, same.symm⟩
    rw [Function.update_of_ne other, Function.extend_apply' _ _ _ named, Function.extend_apply' _ _ _ named]

theorem extend_const {α β γ : Type} (f : α → β) (c : γ) : Function.extend f (fun _ => c) (fun _ => c) = fun _ => c := by
  funext b
  by_cases named : ∃ a, f a = b
  · have same : ∀ a a', f a = f a' → (fun _ : α => c) a = (fun _ : α => c) a' := fun _ _ _ => rfl
    obtain ⟨a, rfl⟩ := named
    exact Function.FactorsThrough.extend_apply (fun _ _ h => same _ _ h) _ a
  · exact Function.extend_apply' _ _ _ named

section Commutes
variable (r : Renaming K₀ N₀ A₀ W₀ K N A W) [DecidableEq A]

@[simp] theorem rename_links (ns : Namespace N₀ A₀ W₀) (n : N₀) :
    (ns.rename r).links (r.name n) = (ns.links n).map (Link.rename r) := by
  simp [Namespace.rename, r.name_inj.extend_apply]

@[simp] theorem rename_route (ns : Namespace N₀ A₀ W₀) : (ns.rename r).route = ns.route.map r.name := rfl

@[simp] theorem rename_named (net : Network K₀ N₀ A₀ W₀) (k : K₀) :
    (net.rename r).named (r.space k) = (net.named k).map (Namespace.rename r) := by
  simp [Network.rename, r.space_inj.extend_apply]

theorem rename_put [DecidableEq N] [DecidableEq N₀] (ns : Namespace N₀ A₀ W₀) (n : N₀) (link : Option (Link A₀ W₀)) :
    (ns.rename r).put (r.name n) (link.map (Link.rename r)) = (ns.put n link).rename r := by
  unfold Namespace.put Namespace.rename
  rw [update_extend r.name_inj]
  congr
  funext m
  by_cases same : m = n
  · subst same
    simp
  · simp [same]

theorem rename_drop [DecidableEq N] [DecidableEq N₀] (ns : Namespace N₀ A₀ W₀) (n : N₀) :
    (ns.rename r).drop (r.name n) = (ns.drop n).rename r := by
  have links : ((ns.rename r).put (r.name n) none).links = ((ns.put n none).rename r).links :=
    congrArg Namespace.links (rename_put r ns n none)
  have route : (if ns.route.map r.name = some (r.name n) then none else ns.route.map r.name)
      = (if ns.route = some n then none else ns.route).map r.name := by
    cases ns.route with
    | none => rfl
    | some via => by_cases same : via = n <;> simp [same, r.name_inj.eq_iff]
  change (⟨((ns.rename r).put (r.name n) none).links, _⟩ : Namespace N A W) = ⟨((ns.put n none).rename r).links, _⟩
  rw [links]
  exact congrArg _ route

theorem rename_putNamed [DecidableEq K] [DecidableEq K₀] (net : Network K₀ N₀ A₀ W₀) (k : K₀)
    (space : Namespace N₀ A₀ W₀) :
    (net.rename r).putNamed (r.space k) (space.rename r) = (net.putNamed k space).rename r := by
  unfold Network.putNamed Network.rename
  rw [update_extend r.space_inj]
  congr
  funext m
  by_cases same : m = k
  · subst same
    simp
  · simp [same]

@[simp] theorem kindOf_rename (net : Network K₀ N₀ A₀ W₀) (n : N₀) :
    (net.rename r).kindOf (r.name n) = net.kindOf n := by
  unfold Network.kindOf
  rw [show (net.rename r).root = net.root.rename r from rfl, rename_links, Option.map_map]
  rfl

theorem kindOf_named {net : Network K₀ N₀ A₀ W₀} {name : N} (there : ((net.rename r).kindOf name).isSome) :
    ∃ n, r.name n = name := by
  by_contra foreign
  have absent : (net.rename r).root.links name = none :=
    Function.extend_apply' (fun n => (net.root.links n).map (Link.rename r)) (fun _ => none) name foreign
  simp [Network.kindOf, absent] at there

@[simp] theorem rename_link (kind : Kind) : Link.rename r { kind := kind } = { kind := kind } := by
  simp [Link.rename]

section Run
variable [DecidableEq N] [DecidableEq N₀]

theorem rename_fresh (lo : N₀) : (Namespace.fresh lo : Namespace N₀ A₀ W₀).rename r = .fresh (r.name lo) := by
  have named := update_extend r.name_inj (fun _ => none) (fun _ => none) lo (some ({ kind := .loopback } : Link A W))
  rw [extend_const] at named
  unfold Namespace.rename Namespace.fresh
  rw [named]
  congr
  funext m
  by_cases same : m = lo
  · subst same
    simp
  · simp [same]

theorem rename_empty (lo : N₀) : (Network.empty lo : Network K₀ N₀ A₀ W₀).rename r = .empty (r.name lo) := by
  simp only [Network.rename, Network.empty, rename_fresh, Option.map_none, extend_const]

variable [DecidableEq A₀]

theorem rename_action (ns : Namespace N₀ A₀ W₀) (act : Action N₀ A₀ W₀) :
    (ns.rename r).run (act.rename r) = (ns.run act).rename r := by
  cases act with
  | addWireguard name =>
    simp only [Action.rename, Namespace.run, rename_links]
    cases ns.links name with
    | none => simpa using rename_put r ns name (some { kind := .wireguard })
    | some link => rfl
  | addVeth name peer =>
    simp only [Action.rename, Namespace.run, rename_links]
    cases ns.links name with
    | some link => rfl
    | none =>
      cases ns.links peer with
      | some link => rfl
      | none =>
        have first := rename_put r ns name (some { kind := .veth })
        have second := rename_put r (ns.put name (some { kind := .veth })) peer (some { kind := .veth })
        rw [Option.map_some, rename_link] at first second
        rw [← second, ← first]
        rfl
  | setUp dev =>
    simp only [Action.rename, Namespace.run, rename_links]
    cases ns.links dev with
    | none => rfl
    | some link => exact rename_put r ns dev (some { link with up := true })
  | addAddress addr dev =>
    simp only [Action.rename, Namespace.run, rename_links]
    cases ns.links dev with
    | none => rfl
    | some link =>
      have renamed := rename_put r ns dev (some { link with addrs := insert addr link.addrs })
      simpa [Link.rename, Finset.image_insert] using renamed
  | addRoute dev =>
    simp only [Action.rename, Namespace.run, rename_links, rename_route]
    cases ns.links dev with
    | none => rfl
    | some link =>
      cases found : ns.route with
      | some via => rfl
      | none =>
        by_cases up : link.up = true
        · simp [Link.rename, up, Namespace.rename]
        · simp [Link.rename, up]
  | setPeer dev peer =>
    simp only [Action.rename, Namespace.run, rename_links]
    cases ns.links dev with
    | none => rfl
    | some link =>
      have renamed := rename_put r ns dev (some { link with peer := some peer })
      by_cases tunnel : link.kind = .wireguard
      · simpa [Link.rename, tunnel] using renamed
      · simp [Link.rename, tunnel]

variable [DecidableEq K] [DecidableEq K₀]

theorem rename_command (lo : N₀) (net : Network K₀ N₀ A₀ W₀) (command : Command K₀ N₀ A₀ W₀) :
    (net.rename r).run (r.name lo) (command.rename r) = (net.run lo command).rename r := by
  cases command with
  | addNetns ns =>
    simp only [Command.rename, Network.run, rename_named]
    cases net.named ns with
    | none =>
      rw [Option.map_none, ← rename_putNamed, rename_fresh]
    | some space => rfl
  | setNetns dev ns =>
    have links : (net.rename r).root.links (r.name dev) = (net.root.links dev).map (Link.rename r) :=
      rename_links r net.root dev
    simp only [Command.rename, Network.run, rename_named, links]
    cases net.root.links dev with
    | none => rfl
    | some link =>
      cases net.named ns with
      | none => rfl
      | some space =>
        simp only [Option.map_some, rename_links]
        cases space.links dev with
        | some taken => rfl
        | none =>
          have moved := rename_put r space dev (some { link with addrs := ∅, up := false })
          have left := rename_drop r net.root dev
          have renamed := rename_putNamed r { net with root := net.root.drop dev }
            ns (space.put dev (some { link with addrs := ∅, up := false }))
          rw [← renamed, ← moved]
          simp only [Network.rename, ← left]
          rfl
  | outside act =>
    have root := rename_action r net.root act
    simp only [Command.rename, Network.run, Network.rename, root]
  | inside ns act =>
    simp only [Command.rename, Network.run, rename_named]
    cases net.named ns with
    | none => rfl
    | some space =>
      simp only [Option.map_some]
      rw [rename_action, rename_putNamed]

theorem rename_runAll (lo : N₀) (net : Network K₀ N₀ A₀ W₀) (commands : List (Command K₀ N₀ A₀ W₀)) :
    (net.rename r).runAll (r.name lo) (commands.map (Command.rename r)) = (net.runAll lo commands).rename r := by
  induction commands generalizing net with
  | nil => rfl
  | cons command commands ih =>
    change ((net.rename r).run _ _).runAll _ _ = ((net.run lo command).runAll lo commands).rename r
    rw [rename_command, ih]

end Run

end Commutes

end Iproute
