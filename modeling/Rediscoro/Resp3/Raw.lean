import Rediscoro.Resp3.Buffer

/-! The flat raw tree.

Nodes and links live in two vectors that only grow while a message is parsed;
a node names its children and its attributes as windows of `links`. The text of
a node is a parameter: views in the parser, spans of the unread octets in a
token, octets once the views are read.
-/

set_option autoImplicit false

namespace Rediscoro.Resp3

/-- The conversion to `std::uint32_t`, the type of every index and count of the tree. -/
def u32 (n : Nat) : Nat := n % 2 ^ 32

theorem u32_of_lt {n : Nat} (small : n < 2 ^ 32) : u32 n = n := Nat.mod_eq_of_lt small

theorem u32_le (n : Nat) : u32 n ≤ n := Nat.mod_le n _

/-- A double is identified with the literal it was parsed from. -/
structure RawNode (τ : Type) where
  type : Kind
  text : τ
  i64 : Int := 0
  f64 : Bytes := []
  boolean : Bool := false
  firstChild : Nat := 0
  childCount : Nat := 0
  firstAttr : Nat := 0
  attrCount : Nat := 0
  deriving DecidableEq

structure RawTree (τ : Type) where
  nodes : List (RawNode τ) := []
  links : List Nat := []
  deriving DecidableEq

variable {τ υ : Type}

/-- Texts are translated by a function that may look at the node's kind, which never changes. -/
def RawNode.map (f : Kind → τ → υ) (node : RawNode τ) : RawNode υ := { node with text := f node.type node.text }

namespace RawTree

def map (f : Kind → τ → υ) (tree : RawTree τ) : RawTree υ := { nodes := tree.nodes.map (·.map f), links := tree.links }

/-- `nodes.push_back` and the index the new node gets. -/
def push (tree : RawTree τ) (node : RawNode τ) : RawTree τ := { tree with nodes := tree.nodes ++ [node] }

def nextIndex (tree : RawTree τ) : Nat := u32 tree.nodes.length

/-- `links.size()` as the source stores it in a node. -/
def nextLink (tree : RawTree τ) : Nat := u32 tree.links.length

def link (tree : RawTree τ) (target : Nat) : RawTree τ := { tree with links := tree.links ++ [target] }

def update (tree : RawTree τ) (index : Nat) (change : RawNode τ → RawNode τ) : RawTree τ :=
  { tree with nodes := tree.nodes.modify index change }

@[simp] theorem map_push (f : Kind → τ → υ) (tree : RawTree τ) (node : RawNode τ) :
    (tree.push node).map f = (tree.map f).push (node.map f) := by
  simp [map, push]

@[simp] theorem map_link (f : Kind → τ → υ) (tree : RawTree τ) (target : Nat) :
    (tree.link target).map f = (tree.map f).link target := rfl

@[simp] theorem nextIndex_map (f : Kind → τ → υ) (tree : RawTree τ) : (tree.map f).nextIndex = tree.nextIndex := by
  simp [nextIndex, map]

@[simp] theorem nextLink_map (f : Kind → τ → υ) (tree : RawTree τ) : (tree.map f).nextLink = tree.nextLink := rfl

theorem map_update (f : Kind → τ → υ) (tree : RawTree τ) (index : Nat) {change : RawNode τ → RawNode τ}
    {change' : RawNode υ → RawNode υ} (same : ∀ node, (change node).map f = change' (node.map f)) :
    (tree.update index change).map f = (tree.map f).update index change' := by
  simp only [map, update, RawTree.mk.injEq, and_true]
  apply List.ext_getElem?
  intro position
  simp only [List.getElem?_map, List.getElem?_modify]
  cases tree.nodes[position]? with
  | none => rfl
  | some node =>
    by_cases here : index = position
    · simp [here, same]
    · simp [here]

end RawTree

end Rediscoro.Resp3
