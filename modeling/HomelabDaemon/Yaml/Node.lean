import HomelabDaemon.Yaml.Lines

/-!
# Block documents

Sequences and mappings by the columns of their dashes and keys. What stands deeper than a dash or
a key is its value.
-/

namespace Yaml

inductive Node where
  | null
  | scalar (text : String)
  | seq (items : List Node)
  | map (fields : List (String × Node))

def Token.col : Token → Option Nat
  | dash col | key col _ => some col
  | scalar _ => none

def Token.isDash : Token → Option Unit
  | dash _ => some ()
  | _ => none

def Token.isKey : Token → Option String
  | key _ name => some name
  | _ => none

/-- The entries at column `col`, up to one that stands further left. -/
def parseEntries {α : Type} (label : Token → Option α) (value : List Token → Option (Node × List Token)) (col : Nat) :
    Nat → List Token → Option (List (α × Node) × List Token)
  | 0, _ => none
  | _ + 1, [] => some ([], [])
  | n + 1, token :: rest =>
    match token.col with
    | none => none
    | some c =>
      if c < col then some ([], token :: rest)
      else if c = col then do
        let a ← label token
        let (node, rest) ← value rest
        let (entries, rest) ← parseEntries label value col n rest
        return ((a, node) :: entries, rest)
      else none

/-- The value that stands at column `min` or deeper, or null. -/
def parseValue : Nat → Nat → List Token → Option (Node × List Token)
  | 0, _, _ => none
  | _ + 1, _, [] => some (.null, [])
  | _ + 1, _, .scalar text :: rest => some (.scalar text, rest)
  | n + 1, min, .dash col :: rest =>
    if col < min then some (.null, .dash col :: rest)
    else (parseEntries Token.isDash (parseValue n (col + 1)) col n (.dash col :: rest)).map fun (items, rest) =>
      (.seq (items.map (·.2)), rest)
  | n + 1, min, .key col name :: rest =>
    if col < min then some (.null, .key col name :: rest)
    else (parseEntries Token.isKey (parseValue n (col + 1)) col n (.key col name :: rest)).map fun (fields, rest) =>
      (.map fields, rest)

def parse (tokens : List Token) : Option Node :=
  match parseValue (2 * tokens.length + 2) 0 tokens with
  | some (node, []) => some node
  | _ => none

/-- The document that a text presents, when it consists of block collections and plain scalars. -/
def read (text : List Char) : Option Node := (lex text).bind parse

/-- What follows stands further left than `col`. -/
def Below (col : Nat) : List Token → Prop
  | [] => True
  | token :: _ => ∃ c, token.col = some c ∧ c < col

/-- The tokens present the node, whatever follows them further left. -/
def Presents (min : Nat) (tokens : List Token) (node : Node) : Prop :=
  ∀ rest, Below min rest → ∀ n, 2 * tokens.length + 2 ≤ n → parseValue n min (tokens ++ rest) = some (node, rest)

/-- One entry of a collection. -/
structure Entry (α : Type) where
  label : α
  tokens : List Token
  node : Node

section Presents
variable {α : Type} {min col : Nat} {rest : List Token}

theorem Below.mono {col' : Nat} (h : Below col rest) (le : col ≤ col') : Below col' rest := by
  cases rest with
  | nil => trivial
  | cons token rest =>
    obtain ⟨c, at_, left⟩ := h
    exact ⟨c, at_, by omega⟩

theorem presents_null : Presents min [] .null := by
  intro rest below n bound
  obtain ⟨n, rfl⟩ : ∃ m, n = m + 1 := ⟨n - 1, by simp at bound; omega⟩
  cases rest with
  | nil => rfl
  | cons token rest =>
    obtain ⟨c, at_, left⟩ := below
    cases token with
    | scalar text => cases at_
    | dash col | key col name =>
      obtain rfl := Option.some.inj at_
      exact if_pos left

theorem presents_scalar (text : String) : Presents min [.scalar text] (.scalar text) := by
  intro rest below n bound
  obtain ⟨n, rfl⟩ : ∃ m, n = m + 1 := ⟨n - 1, by simp at bound; omega⟩
  rfl

theorem parseEntries_flatMap (label : Token → Option α) (token : α → Token) (labels : ∀ a, label (token a) = some a)
    (cols : ∀ a, (token a).col = some col) {entries : List (Entry α)}
    (presents : ∀ e ∈ entries, Presents (col + 1) e.tokens e.node) (below : Below col rest) {n m : Nat}
    (steps : entries.length + 1 ≤ n) (deep : ∀ e ∈ entries, 2 * e.tokens.length + 2 ≤ m) :
    parseEntries label (parseValue m (col + 1)) col n ((entries.flatMap fun e => token e.label :: e.tokens) ++ rest) =
      some (entries.map fun e => (e.label, e.node), rest) := by
  induction entries generalizing n with
  | nil =>
    obtain ⟨n, rfl⟩ : ∃ m, n = m + 1 := ⟨n - 1, by simp at steps; omega⟩
    cases rest with
    | nil => rfl
    | cons next rest =>
      obtain ⟨c, at_, left⟩ := below
      simp only [List.flatMap_nil, List.nil_append, parseEntries, at_, if_pos left, List.map_nil]
  | cons e entries ih =>
    rw [List.length_cons] at steps
    obtain ⟨n, rfl⟩ : ∃ m, n = m + 1 := ⟨n - 1, by omega⟩
    have others := ih (fun e member => presents e (List.mem_cons_of_mem _ member)) (n := n) (by omega)
      fun e member => deep e (List.mem_cons_of_mem _ member)
    have next : Below (col + 1) ((entries.flatMap fun e => token e.label :: e.tokens) ++ rest) := by
      cases entries with
      | nil => exact below.mono (Nat.le_succ col)
      | cons e' entries => exact ⟨col, cols e'.label, Nat.lt_succ_self col⟩
    have value := presents e List.mem_cons_self _ next m (deep e List.mem_cons_self)
    rw [List.flatMap_cons, List.cons_append, List.cons_append, List.append_assoc, parseEntries]
    simp only [cols, labels, Nat.lt_irrefl, ↓reduceIte, Option.bind_eq_bind, Option.bind_some, value, others]
    rfl

theorem entries_length (token : α → Token) (entries : List (Entry α)) :
    entries.length ≤ (entries.flatMap fun e => token e.label :: e.tokens).length ∧
    ∀ e ∈ entries, e.tokens.length + 1 ≤ (entries.flatMap fun e => token e.label :: e.tokens).length := by
  induction entries with
  | nil => exact ⟨Nat.zero_le _, fun e member => nomatch member⟩
  | cons first entries ih =>
    simp only [List.flatMap_cons, List.cons_append, List.length_cons, List.length_append]
    refine ⟨by omega, fun e member => ?_⟩
    rcases List.mem_cons.mp member with rfl | member
    · omega
    · have bound := ih.2 e member
      omega

theorem presents_seq {entries : List (Entry Unit)} (notEmpty : entries ≠ []) (le : min ≤ col)
    (presents : ∀ e ∈ entries, Presents (col + 1) e.tokens e.node) :
    Presents min (entries.flatMap fun e => .dash col :: e.tokens) (.seq (entries.map (·.node))) := by
  intro rest below n bound
  obtain ⟨n, rfl⟩ : ∃ m, n = m + 1 := ⟨n - 1, by omega⟩
  obtain ⟨count, deep⟩ := entries_length (fun _ => Token.dash col) entries
  have parsed := parseEntries_flatMap Token.isDash (fun _ => Token.dash col) (fun _ => rfl) (fun _ => rfl) presents
    (below.mono le) (n := n) (m := n) (by omega) fun e member => by
      have short := deep e member
      omega
  obtain ⟨first, others, rfl⟩ := List.exists_cons_of_ne_nil notEmpty
  rw [List.flatMap_cons, List.cons_append, List.cons_append] at parsed ⊢
  rw [parseValue, if_neg (by omega), parsed]
  simp

theorem presents_map {entries : List (Entry String)} (notEmpty : entries ≠ []) (le : min ≤ col)
    (presents : ∀ e ∈ entries, Presents (col + 1) e.tokens e.node) :
    Presents min (entries.flatMap fun e => .key col e.label :: e.tokens)
    (.map (entries.map fun e => (e.label, e.node))) := by
  intro rest below n bound
  obtain ⟨n, rfl⟩ : ∃ m, n = m + 1 := ⟨n - 1, by omega⟩
  obtain ⟨count, deep⟩ := entries_length (fun name => Token.key col name) entries
  have parsed := parseEntries_flatMap Token.isKey (fun name => Token.key col name) (fun _ => rfl)
    (fun _ => rfl) presents
    (below.mono le) (n := n) (m := n) (by omega) fun e member => by
      have short := deep e member
      omega
  obtain ⟨first, others, rfl⟩ := List.exists_cons_of_ne_nil notEmpty
  rw [List.flatMap_cons, List.cons_append, List.cons_append] at parsed ⊢
  rw [parseValue, if_neg (by omega), parsed]
  rfl

theorem parse_of_presents {tokens : List Token} {node : Node} (h : Presents 0 tokens node) :
    parse tokens = some node := by
  have parsed := h [] trivial _ (Nat.le_refl _)
  rw [List.append_nil] at parsed
  unfold parse
  rw [parsed]

end Presents

end Yaml
