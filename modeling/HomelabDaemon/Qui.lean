import Mathlib.Algebra.Order.BigOperators.Group.List
import Mathlib.Algebra.Order.Group.Nat

/-!
# qui torrents

The aggregation of all torrents over the paginated qui API. The API is a function of the request, with each
transport, status or decoding error as its text.
-/

namespace HomelabDaemon.Qui

def pageLimit : Nat := 200

structure Instance where
  id : Int
  name : String

/-- A torrent of the qui schema, with its progress as the bits of the float. -/
structure Torrent where
  hash : String
  name : String
  size : Int
  progress : UInt64
  dlSpeed : Int
  upSpeed : Int
  eta : Int
  state : String
  deriving DecidableEq

structure TorrentsResponse where
  torrents : List Torrent
  total : Int

structure QbitTorrent where
  hash : String
  name : String
  size : Int
  progress : UInt64
  dlspeed : Int
  upspeed : Int
  eta : Int
  state : String
  instance_ : String
  deriving DecidableEq

structure Request where
  id : Int
  page : Nat
  limit : Nat
  sort : String
  order : String

structure Api where
  instances : Except String (List Instance)
  torrents : Request → Except String TorrentsResponse

inductive Error where
  | listInstances (error : String)
  | instance (name error : String)
  deriving DecidableEq

def request (id : Int) (page : Nat) : Request :=
  { id, page, limit := pageLimit, sort := "dlspeed", order := "desc" }

structure Fetched where
  torrents : Except String (List Torrent)
  requests : Nat

namespace Api

/-- The loop over the pages, where `all` has the earlier ones. -/
def fetch (api : Api) (id : Int) : Nat → Nat → List Torrent → Option Fetched
  | 0, _, _ => none
  | fuel + 1, page, all =>
    match api.torrents (request id page) with
    | .error error => some { torrents := .error error, requests := page }
    | .ok resp =>
      let all := all ++ resp.torrents
      if resp.torrents.length = 0 ∨ resp.total ≤ all.length then some { torrents := .ok all, requests := page }
      else api.fetch id fuel (page + 1) all

def instanceTorrents (api : Api) (fuel : Nat) (id : Int) : Option Fetched := api.fetch id fuel 1 []

end Api

def Torrent.tagged (inst : Instance) (t : Torrent) : QbitTorrent :=
  { hash := t.hash, name := t.name, size := t.size, progress := t.progress, dlspeed := t.dlSpeed,
    upspeed := t.upSpeed, eta := t.eta, state := t.state, instance_ := inst.name }

namespace Api

def aggregate (api : Api) (fuel : Nat) : List Instance → List QbitTorrent → Option (Except Error (List QbitTorrent))
  | [], out => some (.ok out)
  | inst :: rest, out => do
    match (← api.instanceTorrents fuel inst.id).torrents with
    | .error error => some (.error (.instance inst.name error))
    | .ok ts => api.aggregate fuel rest (out ++ ts.map (Torrent.tagged inst))

/-- `sort.SliceStable` by download speed. -/
def sortStable (out : List QbitTorrent) : List QbitTorrent :=
  out.mergeSort fun a b => !decide (a.dlspeed < b.dlspeed)

/-- All torrents, where no instance may take more than `fuel` requests. -/
def allTorrents (api : Api) (fuel : Nat) : Option (Except Error (List QbitTorrent)) :=
  match api.instances with
  | .error error => some (.error (.listInstances error))
  | .ok instances => (api.aggregate fuel instances []).map (·.map sortStable)

end Api

/-! ### Stable sorting -/

/-- A list in descending order, with ties as they were. -/
structure StablyDescending {α : Type} (key : α → Int) (before after : List α) : Prop where
  perm : after.Perm before
  descending : after.Pairwise fun a b => key b ≤ key a
  ties : ∀ k, (after.filter fun a => key a = k) = before.filter fun a => key a = k

theorem mergeSort_stablyDescending {α : Type} (key : α → Int) (l : List α) :
    StablyDescending key l (l.mergeSort fun a b => !decide (key a < key b)) := by
  have trans : ∀ a b c : α, (!decide (key a < key b)) = true → (!decide (key b < key c)) = true →
      (!decide (key a < key c)) = true := by
    intro a b c first second
    simp only [Bool.not_eq_true', decide_eq_false_iff_not] at first second ⊢
    omega
  have total : ∀ a b : α, (!decide (key a < key b) || !decide (key b < key a)) = true := by
    intro a b
    simp only [Bool.or_eq_true, Bool.not_eq_true', decide_eq_false_iff_not]
    omega
  have perm := List.mergeSort_perm l fun a b => !decide (key a < key b)
  refine ⟨perm, ?_, ?_⟩
  · refine (List.pairwise_mergeSort trans total l).imp ?_
    intro a b ordered
    simp only [Bool.not_eq_true', decide_eq_false_iff_not] at ordered
    omega
  · intro k
    -- the elements with one key are a sorted sublist, which a stable sort keeps
    have tied : (l.filter fun a => key a = k).Pairwise fun a b => (!decide (key a < key b)) = true := by
      refine List.pairwise_of_forall_mem_list ?_
      intro a atKey b atKey'
      have sameA : key a = k := of_decide_eq_true (List.mem_filter.mp atKey).2
      have sameB : key b = k := of_decide_eq_true (List.mem_filter.mp atKey').2
      simp [sameA, sameB]
    have sub := (List.sublist_mergeSort trans total tied List.filter_sublist).filter fun a => decide (key a = k)
    rw [List.filter_filter] at sub
    simp only [Bool.and_self] at sub
    exact (sub.eq_of_length (perm.filter _).length_eq.symm).symm

/-- What a server with pages of `size` elements answers as page `page`. -/
def pageOf {α : Type} (size page : Nat) (l : List α) : List α :=
  (l.drop ((page - 1) * size)).take size

theorem take_append_pageOf {α : Type} (size : Nat) {page : Nat} (l : List α) (positive : 1 ≤ page) :
    l.take ((page - 1) * size) ++ pageOf size page l = l.take (page * size) := by
  obtain ⟨page, rfl⟩ := Nat.exists_eq_add_of_le' positive
  rw [pageOf, Nat.add_sub_cancel, Nat.succ_mul, List.take_add]

theorem pageOf_length {α : Type} (size page : Nat) (l : List α) :
    (pageOf size page l).length = min size (l.length - (page - 1) * size) := by
  rw [pageOf, List.length_take, List.length_drop]

namespace Api

structure Serves (api : Api) (torrents : Int → List Torrent) (size : Nat) : Prop where
  page : ∀ id page, 1 ≤ page → api.torrents (request id page) =
    .ok { torrents := pageOf size page (torrents id), total := (torrents id).length }

def ConstantTotal (api : Api) (id total : Int) : Prop :=
  ∀ page resp, api.torrents (request id page) = .ok resp → resp.total = total

variable {api : Api}

/-- The pages so far are a beginning of the list. -/
theorem fetch_pages {torrents : Int → List Torrent} {size : Nat} (serves : api.Serves torrents size)
    (positive : 1 ≤ size) (id : Int) (fuel page : Nat) (started : 1 ≤ page)
    (within : (page - 1) * size ≤ (torrents id).length)
    (enough : (torrents id).length + 1 ≤ fuel + (page - 1) * size) :
    ∃ requests, api.fetch id fuel page ((torrents id).take ((page - 1) * size)) =
      some { torrents := .ok (torrents id), requests } := by
  induction fuel generalizing page with
  | zero => omega
  | succ fuel ih =>
    obtain ⟨earlier, rfl⟩ := Nat.exists_eq_add_of_le' started
    have next : (earlier + 1) * size = earlier * size + size := Nat.succ_mul earlier size
    rw [Nat.add_sub_cancel] at within enough
    rw [fetch, serves.page id _ started]
    simp only [take_append_pageOf size _ started, pageOf_length, List.length_take]
    rw [Nat.add_sub_cancel]
    split
    · rename_i last
      have whole : (torrents id).length ≤ (earlier + 1) * size := by omega
      exact ⟨earlier + 1, by rw [List.take_of_length_le whole]⟩
    · rename_i more
      refine ih (earlier + 2) (by omega) ?_ ?_
      · show (earlier + 1) * size ≤ _
        omega
      · show _ ≤ fuel + (earlier + 1) * size
        omega

theorem instanceTorrents_pages {torrents : Int → List Torrent} {size : Nat} (serves : api.Serves torrents size)
    (positive : 1 ≤ size) (id : Int) {fuel : Nat} (enough : (torrents id).length < fuel) :
    ∃ requests, api.instanceTorrents fuel id = some { torrents := .ok (torrents id), requests } := by
  have pages := fetch_pages serves positive id fuel 1 (Nat.le_refl 1) (by omega) (by omega)
  rw [Nat.sub_self, Nat.zero_mul, List.take_zero] at pages
  exact pages

theorem fetch_requests {id : Int} {total : Nat} (constant : api.ConstantTotal id total) (fuel page : Nat)
    (all : List Torrent) (enough : total + 2 ≤ fuel + page) (fetched : page ≤ all.length + 1)
    (within : page ≤ total + 1) :
    ∃ fetched, api.fetch id fuel page all = some fetched ∧ fetched.requests ≤ total + 1 := by
  induction fuel generalizing page all with
  | zero => omega
  | succ fuel ih =>
    rw [fetch]
    split
    · exact ⟨_, rfl, within⟩
    · rename_i resp answered
      have same := constant _ _ answered
      dsimp only
      split
      · exact ⟨_, rfl, within⟩
      · rename_i more
        rw [not_or, same, List.length_append] at more
        rw [← List.length_append] at more
        refine ih (page + 1) _ ?_ ?_ ?_
        · omega
        · rw [List.length_append]
          omega
        · rw [List.length_append] at more
          omega

theorem aggregate_pages {torrents : Int → List Torrent} {size : Nat} (serves : api.Serves torrents size)
    (positive : 1 ≤ size) {fuel : Nat} (instances : List Instance) (out : List QbitTorrent)
    (enough : ∀ inst ∈ instances, (torrents inst.id).length < fuel) :
    api.aggregate fuel instances out =
      some (.ok (out ++ instances.flatMap fun inst => (torrents inst.id).map (Torrent.tagged inst))) := by
  induction instances generalizing out with
  | nil => rw [aggregate, List.flatMap_nil, List.append_nil]
  | cons inst rest ih =>
    obtain ⟨requests, fetched⟩ := instanceTorrents_pages serves positive inst.id (enough inst List.mem_cons_self)
    rw [aggregate, fetched]
    show api.aggregate fuel rest _ = _
    rw [ih _ fun other member => enough other (List.mem_cons_of_mem _ member), List.flatMap_cons, List.append_assoc]

end Api

/-- Each torrent on the server with its instance, in instance order and then in server order. -/
def served (instances : List Instance) (torrents : Int → List Torrent) : List (Instance × Torrent) :=
  instances.flatMap fun inst => (torrents inst.id).map fun t => (inst, t)

/-- The row has every field of the torrent, and the name of its instance. -/
structure Carries (entry : Instance × Torrent) (row : QbitTorrent) : Prop where
  hash : row.hash = entry.2.hash
  name : row.name = entry.2.name
  size : row.size = entry.2.size
  progress : row.progress = entry.2.progress
  dlspeed : row.dlspeed = entry.2.dlSpeed
  upspeed : row.upspeed = entry.2.upSpeed
  eta : row.eta = entry.2.eta
  state : row.state = entry.2.state
  instance_ : row.instance_ = entry.1.name

theorem tagged_carries (entry : Instance × Torrent) : Carries entry (entry.2.tagged entry.1) :=
  ⟨rfl, rfl, rfl, rfl, rfl, rfl, rfl, rfl, rfl⟩

theorem tagged_eq_map (instances : List Instance) (torrents : Int → List Torrent) :
    (instances.flatMap fun inst => (torrents inst.id).map (Torrent.tagged inst)) =
      (served instances torrents).map fun entry => entry.2.tagged entry.1 := by
  simp only [served, List.map_flatMap, List.map_map]
  rfl

/-- The rows are sorted as their torrents are. -/
theorem sortStable_map (entries : List (Instance × Torrent)) :
    Api.sortStable (entries.map fun entry => entry.2.tagged entry.1) =
      (entries.mergeSort fun a b => !decide (a.2.dlSpeed < b.2.dlSpeed)).map fun entry => entry.2.tagged entry.1 := by
  unfold Api.sortStable
  rw [← List.map_mergeSort]
  intro a _ b _
  rfl

theorem allTorrents_pages {api : Api} {instances : List Instance} {torrents : Int → List Torrent} {size : Nat}
    (listed : api.instances = .ok instances) (serves : api.Serves torrents size) (positive : 1 ≤ size) :
    ∃ enough, ∀ fuel, enough ≤ fuel → api.allTorrents fuel =
      some (.ok (Api.sortStable ((served instances torrents).map fun entry => entry.2.tagged entry.1))) := by
  refine ⟨(instances.map fun inst => (torrents inst.id).length).sum + 1, ?_⟩
  intro fuel enough
  have each : ∀ inst ∈ instances, (torrents inst.id).length < fuel := by
    intro inst member
    have le := List.le_sum_of_mem (List.mem_map_of_mem (f := fun inst => (torrents inst.id).length) member)
    omega
  rw [Api.allTorrents, listed]
  dsimp only
  rw [Api.aggregate_pages serves positive instances [] each, List.nil_append, tagged_eq_map]
  rfl

/-- The list is the server's torrents, stably sorted, each as one row. -/
def Complete (instances : List Instance) (torrents : Int → List Torrent) (out : List QbitTorrent) : Prop :=
  ∃ order, StablyDescending (fun entry : Instance × Torrent => entry.2.dlSpeed) (served instances torrents) order ∧
    List.Forall₂ Carries order out

theorem sortStable_complete (instances : List Instance) (torrents : Int → List Torrent) :
    Complete instances torrents
      (Api.sortStable ((served instances torrents).map fun entry => entry.2.tagged entry.1)) := by
  refine ⟨_, mergeSort_stablyDescending (fun entry : Instance × Torrent => entry.2.dlSpeed) _, ?_⟩
  rw [sortStable_map, List.forall₂_map_right_iff]
  exact List.forall₂_same.mpr fun entry _ => tagged_carries entry

/-- All torrents are complete and in order, and no instance takes more than one request over the total. -/
theorem allTorrents_complete (api : Api) (instances : List Instance) (torrents : Int → List Torrent) (size : Nat) :
    (api.instances = .ok instances → 1 ≤ size → size ≤ 200 → api.Serves torrents size →
      ∃ out enough, (∀ fuel, enough ≤ fuel → api.allTorrents fuel = some (.ok out)) ∧
        Complete instances torrents out) ∧
    ∀ id (total : Nat), api.ConstantTotal id total → ∀ fuel, total + 1 ≤ fuel →
      ∃ fetched, api.instanceTorrents fuel id = some fetched ∧ fetched.requests ≤ total + 1 := by
  refine ⟨?_, ?_⟩
  · intro listed positive _ serves
    obtain ⟨enough, ends⟩ := allTorrents_pages listed serves positive
    exact ⟨_, enough, ends, sortStable_complete instances torrents⟩
  · intro id total constant fuel enough
    exact Api.fetch_requests constant fuel 1 [] (by omega) (by simp) (by omega)

namespace Demo

def torrent (hash : String) (dlSpeed : Int) : Torrent :=
  { hash, name := hash, size := 0, progress := 0, dlSpeed, upSpeed := 0, eta := 0, state := "downloading" }

def torrents (id : Int) : List Torrent :=
  if id = 1 then [torrent "slow" 10, torrent "fast" 1000] else [torrent "other" 10]

def instances : List Instance := [{ id := 1, name := "main" }, { id := 2, name := "seedbox" }]

def api : Api where
  instances := .ok instances
  torrents r := .ok { torrents := pageOf 1 r.page (torrents r.id), total := (torrents r.id).length }

end Demo

theorem demo_complete :
    (∃ out enough, (∀ fuel, enough ≤ fuel → Demo.api.allTorrents fuel = some (.ok out)) ∧
      Complete Demo.instances Demo.torrents out) ∧
    ∃ fetched, Demo.api.instanceTorrents 3 1 = some fetched ∧ fetched.requests ≤ 3 :=
  have complete := allTorrents_complete Demo.api Demo.instances Demo.torrents 1
  ⟨complete.1 rfl (by decide) (by decide) ⟨fun _ _ _ => rfl⟩,
    complete.2 1 2 (fun _ _ answered => by cases answered; rfl) 3 (by decide)⟩

end HomelabDaemon.Qui
