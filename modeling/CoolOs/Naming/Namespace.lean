import Mathlib.Data.List.Induction
import Mathlib.Data.List.Nodup
import Mathlib.Logic.Function.Basic

namespace CoolOs.Naming

open List Option

/-!
# Hierarchical names

A namespace is a partial function from a node and a key to a node.  When every
node but the root is the child of exactly one node under exactly one key, a
node has at most one path, so a change at one node is a change at one path, and
adding or removing one child changes what one path leads to.
-/

variable {Node Key : Type}

/-- Follow a list of keys from a node. -/
def walk (child : Node -> Key -> Option Node) : Node -> List Key -> Option Node
  | node, [] => some node
  | node, key :: rest => (child node key).bind (fun next => walk child next rest)

theorem walk_append (child : Node -> Key -> Option Node) (node : Node) (front back : List Key) :
    walk child node (front ++ back) =
      (walk child node front).bind (fun reached => walk child reached back) := by
  induction front generalizing node with
  | nil => rfl
  | cons key rest ih =>
    simp only [cons_append, walk]
    cases child node key with
    | none => rfl
    | some next => exact ih next

theorem walk_concat (child : Node -> Key -> Option Node) (node : Node) (front : List Key)
    (key : Key) :
    walk child node (front ++ [key]) =
      (walk child node front).bind (fun reached => child reached key) := by
  rw [walk_append]
  congr 1
  funext reached
  simp only [walk]
  cases child reached key with
  | none => rfl
  | some next => rfl

/-- Every node that is present, other than the root, is one node's child under
one key; nothing leads to the root or to an absent node. -/
structure WellNamed (child : Node -> Key -> Option Node) (root : Node)
    (present : Node -> Prop) : Prop where
  rooted : present root
  source : forall {node key target}, child node key = some target -> present node
  target : forall {node key target}, child node key = some target -> present target ∧ target ≠ root
  once : forall {node other key otherKey target}, child node key = some target ->
    child other otherKey = some target -> node = other ∧ key = otherKey
  named : forall {target}, present target -> target ≠ root ->
    ∃ node key, child node key = some target

namespace WellNamed

variable {child : Node -> Key -> Option Node} {root : Node} {present : Node -> Prop}
  (named : WellNamed child root present)
include named

theorem child_absent {node : Node} (absent : ¬ present node) (key : Key) :
    child node key = none := by
  cases found : child node key with
  | none => rfl
  | some target => exact absurd (named.source found) absent

theorem walk_present {node reached : Node} {keys : List Key} (start : present node)
    (found : walk child node keys = some reached) : present reached := by
  induction keys generalizing node with
  | nil =>
    cases found
    exact start
  | cons key rest ih =>
    rcases bind_eq_some_iff.mp found with ⟨next, step, later⟩
    exact ih (named.target step).1 later

/-- A node has at most one path. -/
theorem walk_injective {first second : List Key}
    {node : Node} (left : walk child root first = some node)
    (right : walk child root second = some node) : first = second := by
  induction first using reverseRecOn generalizing second node with
  | nil =>
    cases left
    cases second using reverseRecOn with
    | nil => rfl
    | append_singleton front key =>
      rw [walk_concat] at right
      rcases bind_eq_some_iff.mp right with ⟨parent, _, step⟩
      exact absurd rfl (named.target step).2
  | append_singleton front key ih =>
    rw [walk_concat] at left
    rcases bind_eq_some_iff.mp left with ⟨parent, path, step⟩
    cases second using reverseRecOn with
    | nil =>
      cases right
      exact absurd rfl (named.target step).2
    | append_singleton otherFront otherKey =>
      rw [walk_concat] at right
      rcases bind_eq_some_iff.mp right with ⟨otherParent, otherPath, otherStep⟩
      rcases named.once step otherStep with ⟨sameParent, sameKey⟩
      rw [ih path (sameParent ▸ otherPath), sameKey]

end WellNamed

variable {path : List Key}

theorem prefix_concat_of_ne {front : List Key} (different : front ≠ path) (key last : Key) :
    path ++ [key] <+: front ++ [last] <-> path ++ [key] <+: front := by
  rw [prefix_concat_iff]
  constructor
  · rintro (same | below)
    · exact absurd (append_inj' same rfl).1.symm different
    · exact below
  · exact .inr

theorem not_prefix_self (path : List Key) (key : Key) : ¬ path ++ [key] <+: path := by
  intro below
  have lengths := below.length_le
  rw [length_append, length_singleton] at lengths
  omega

theorem prefix_singleton {key last : Key} : path ++ [key] <+: path ++ [last] <-> key = last := by
  rw [prefix_append_right_inj]
  simp

section

variable [DecidableEq Node] [DecidableEq Key]

/-- Redirect one key of one node. -/
def link (child : Node -> Key -> Option Node) (node : Node) (key : Key) (target : Option Node) :
    Node -> Key -> Option Node :=
  fun other otherKey => if other = node ∧ otherKey = key then target else child other otherKey

variable {other : Node} {otherKey : Key}

theorem link_self (child : Node -> Key -> Option Node) (node : Node) (key : Key)
    (target : Option Node) : link child node key target node key = target := if_pos ⟨rfl, rfl⟩

theorem link_of_ne (child : Node -> Key -> Option Node) {node : Node} {key : Key}
    (target : Option Node) (different : ¬ (other = node ∧ otherKey = key)) :
    link child node key target other otherKey = child other otherKey := if_neg different

theorem link_eq_some {child : Node -> Key -> Option Node} {node found : Node} {key : Key}
    {target : Option Node} :
    link child node key target other otherKey = some found <->
      (other = node ∧ otherKey = key) ∧ target = some found ∨
        ¬ (other = node ∧ otherKey = key) ∧ child other otherKey = some found := by
  by_cases same : other = node ∧ otherKey = key <;> simp [link, same]

/-- A link that is there after one was removed was there before. -/
theorem child_of_unlink {child : Node -> Key -> Option Node} {node target : Node} {key : Key}
    (found : link child node key none other otherKey = some target) :
    child other otherKey = some target ∧ ¬ (other = node ∧ otherKey = key) := by
  rcases link_eq_some.mp found with ⟨_, nothing⟩ | ⟨different, old⟩
  · cases nothing
  · exact ⟨old, different⟩

variable {child : Node -> Key -> Option Node} {root : Node} {present : Node -> Prop}
  {directory node : Node} {key : Key}

namespace WellNamed

variable {path : List Key} (named : WellNamed child root present)
include named

/-- Enter a new node under a free key. -/
theorem add (here : present directory)
    (unused : child directory key = none) (fresh : ¬ present node) :
    WellNamed (link child directory key (some node)) root
      (fun other => present other ∨ other = node) where
  rooted := .inl named.rooted
  source := by
    intro other otherKey target found
    rcases link_eq_some.mp found with ⟨⟨rfl, _⟩, _⟩ | ⟨_, old⟩
    · exact .inl here
    · exact .inl (named.source old)
  target := by
    intro other otherKey target found
    rcases link_eq_some.mp found with ⟨_, new⟩ | ⟨_, old⟩
    · cases new
      exact ⟨.inr rfl, fun isRoot => fresh (isRoot ▸ named.rooted)⟩
    · exact ⟨.inl (named.target old).1, (named.target old).2⟩
  once := by
    intro first second firstKey secondKey target left right
    rcases link_eq_some.mp left with ⟨⟨rfl, rfl⟩, new⟩ | ⟨_, leftOld⟩ <;>
      rcases link_eq_some.mp right with ⟨⟨rfl, rfl⟩, newRight⟩ | ⟨_, rightOld⟩
    · exact ⟨rfl, rfl⟩
    · cases new
      exact absurd (named.target rightOld).1 fresh
    · cases newRight
      exact absurd (named.target leftOld).1 fresh
    · exact named.once leftOld rightOld
  named := by
    rintro target (old | rfl) notRoot
    · rcases named.named old notRoot with ⟨parent, parentKey, found⟩
      refine ⟨parent, parentKey, ?_⟩
      rw [link_of_ne child]
      · exact found
      · rintro ⟨rfl, rfl⟩
        rw [unused] at found
        cases found
    · exact ⟨directory, key, link_self child directory key _⟩

/-- Remove a node that has no children. -/
theorem remove
    (found : child directory key = some node) (leaf : ∀ other, child node other = none) :
    WellNamed (link child directory key none) root (fun other => present other ∧ other ≠ node) where
  rooted := ⟨named.rooted, fun same => (named.target found).2 same.symm⟩
  source := by
    intro other otherKey target step
    have old := (child_of_unlink step).1
    refine ⟨named.source old, ?_⟩
    rintro rfl
    rw [leaf] at old
    cases old
  target := by
    intro other otherKey target step
    rcases child_of_unlink step with ⟨old, different⟩
    refine ⟨⟨(named.target old).1, ?_⟩, (named.target old).2⟩
    rintro rfl
    exact different (named.once old found)
  once := fun left right => named.once (child_of_unlink left).1 (child_of_unlink right).1
  named := by
    rintro target ⟨old, different⟩ notRoot
    rcases named.named old notRoot with ⟨parent, parentKey, step⟩
    refine ⟨parent, parentKey, ?_⟩
    rw [link_of_ne child]
    · exact step
    · rintro ⟨rfl, rfl⟩
      rw [found, some.injEq] at step
      exact different step.symm

/-- Move a node to another key of the same directory. -/
theorem rename {newKey : Key}
    (found : child directory key = some node) (unused : child directory newKey = none) :
    WellNamed (link (link child directory key none) directory newKey (some node)) root present where
  rooted := named.rooted
  source := by
    intro other otherKey target step
    rcases link_eq_some.mp step with ⟨⟨rfl, _⟩, _⟩ | ⟨_, old⟩
    · exact named.source found
    · exact named.source (child_of_unlink old).1
  target := by
    intro other otherKey target step
    rcases link_eq_some.mp step with ⟨_, new⟩ | ⟨_, old⟩
    · cases new
      exact named.target found
    · exact named.target (child_of_unlink old).1
  once := by
    intro first second firstKey secondKey target left right
    rcases link_eq_some.mp left with ⟨⟨rfl, rfl⟩, new⟩ | ⟨_, leftOld⟩ <;>
      rcases link_eq_some.mp right with ⟨⟨rfl, rfl⟩, newRight⟩ | ⟨_, rightOld⟩
    · exact ⟨rfl, rfl⟩
    · cases new
      exact absurd (named.once (child_of_unlink rightOld).1 found) (child_of_unlink rightOld).2
    · cases newRight
      exact absurd (named.once (child_of_unlink leftOld).1 found) (child_of_unlink leftOld).2
    · exact named.once (child_of_unlink leftOld).1 (child_of_unlink rightOld).1
  named := by
    intro target old notRoot
    rcases named.named old notRoot with ⟨parent, parentKey, step⟩
    by_cases moved : parent = directory ∧ parentKey = key
    · rcases moved with ⟨rfl, rfl⟩
      rw [found] at step
      exact ⟨parent, newKey, (link_self _ parent newKey _).trans step⟩
    · refine ⟨parent, parentKey, ?_⟩
      rw [link_of_ne, link_of_ne child _ moved]
      · exact step
      · rintro ⟨rfl, rfl⟩
        rw [unused] at step
        cases step

variable (reached : walk child root path = some directory)
include reached

/-- After a link was changed below which nothing is or was, exactly one path leads
somewhere else. -/
theorem walk_link {target : Option Node}
    (nothing : ∀ last, target.bind (fun node => link child directory key target node last) = none)
    (before : ∀ last, (child directory key).bind (fun node => child node last) = none)
    (keys : List Key) : walk (link child directory key target) root keys =
      if keys = path ++ [key] then target else walk child root keys := by
  induction keys using reverseRecOn with
  | nil =>
    rw [if_neg (fun empty => append_ne_nil_of_right_ne_nil _ (cons_ne_nil _ _) empty.symm)]
    rfl
  | append_singleton front last ih =>
    rw [walk_concat, walk_concat, ih]
    by_cases below : front = path ++ [key]
    · rw [if_pos below, below, walk_concat, reached, bind_some, nothing, before,
        if_neg (fun same => absurd (congrArg List.length same) (by simp))]
    · rw [if_neg below]
      by_cases same : front ++ [last] = path ++ [key]
      · rcases append_inj' same rfl with ⟨rfl, lastSame⟩
        cases lastSame
        rw [if_pos same, reached]
        exact link_self _ _ _ _
      · rw [if_neg same]
        cases found : walk child root front with
        | none => rfl
        | some parent =>
          refine link_of_ne child _ ?_
          rintro ⟨rfl, rfl⟩
          exact same (by rw [named.walk_injective found reached])

/-- After a node was entered, exactly one more path leads somewhere. -/
theorem walk_add (unused : child directory key = none) (fresh : ¬ present node) (keys : List Key) :
    walk (link child directory key (some node)) root keys =
      if keys = path ++ [key] then some node else walk child root keys := by
  have apart : node ≠ directory := fun same =>
    fresh (same ▸ named.walk_present named.rooted reached)
  refine named.walk_link reached (fun last => ?_) (fun last => by rw [unused]; rfl) keys
  rw [bind_some, link_of_ne child _ (fun same => apart same.1)]
  exact named.child_absent fresh last

/-- After a leaf was removed, exactly one path leads nowhere any more. -/
theorem walk_remove (found : child directory key = some node)
    (leaf : ∀ other, child node other = none) (keys : List Key) :
    walk (link child directory key none) root keys =
      if keys = path ++ [key] then none else walk child root keys :=
  named.walk_link reached (fun _ => rfl) (fun last => by rw [found]; exact leaf last) keys

end WellNamed

/-! ## Paths after a key was changed -/

/-- The path that led to a place before a key of one directory was changed. -/
def formerPath (path : List Key) (key newKey : Key) (keys : List Key) : Option (List Key) :=
  if path ++ [newKey] <+: keys then some (path ++ key :: keys.drop (path.length + 1))
  else if path ++ [key] <+: keys then none
  else some keys

variable {front path : List Key} {newKey : Key}

theorem formerPath_self (path : List Key) (key newKey : Key) :
    formerPath path key newKey path = some path := by
  rw [formerPath, if_neg (not_prefix_self _ _), if_neg (not_prefix_self _ _)]

theorem formerPath_concat_self (path : List Key) (key newKey last : Key) :
    formerPath path key newKey (path ++ [last]) =
      if newKey = last then some (path ++ [key])
      else if key = last then none else some (path ++ [last]) := by
  rw [formerPath]
  simp only [prefix_singleton]
  rw [drop_of_length_le (by simp)]

theorem formerPath_concat (different : front ≠ path) (key newKey last : Key) :
    formerPath path key newKey (front ++ [last]) =
      (formerPath path key newKey front).map (fun former => former ++ [last]) := by
  rw [formerPath, formerPath]
  simp only [prefix_concat_of_ne different]
  by_cases below : path ++ [newKey] <+: front
  · have long := below.length_le
    rw [length_append, length_singleton] at long
    rw [if_pos below, if_pos below, drop_append_of_le_length long, map_some,
      append_assoc, cons_append]
  · rw [if_neg below, if_neg below]
    by_cases old : path ++ [key] <+: front
    · rw [if_pos old, if_pos old]
      rfl
    · rw [if_neg old, if_neg old]
      rfl

theorem formerPath_ne {former : List Key} {key : Key} (different : front ≠ path)
    (found : formerPath path key newKey front = some former) : former ≠ path := by
  rw [formerPath] at found
  split at found
  · rintro rfl
    have lengths := congrArg List.length (some.inj found)
    simp at lengths
  · split at found
    · cases found
    · rw [<- some.inj found]
      exact different

/-- After a node was moved to another key, every path leads where its former
path led. -/
theorem WellNamed.walk_rename (named : WellNamed child root present)
    (reached : walk child root path = some directory) (found : child directory key = some node)
    (keys : List Key) :
    walk (link (link child directory key none) directory newKey (some node)) root keys =
      (formerPath path key newKey keys).bind (walk child root) := by
  induction keys using reverseRecOn with
  | nil =>
    have absent (last : Key) : ¬ path ++ [last] <+: [] := by
      intro below
      exact append_ne_nil_of_right_ne_nil _ (cons_ne_nil _ _) (prefix_nil.mp below)
    rw [formerPath, if_neg (absent newKey), if_neg (absent key)]
    rfl
  | append_singleton front last ih =>
    rw [walk_concat, ih]
    by_cases here : front = path
    · subst here
      rw [formerPath_self, formerPath_concat_self, bind_some, reached, bind_some]
      by_cases isNew : newKey = last
      · rw [if_pos isNew, <- isNew, link_self, bind_some, walk_concat, reached, bind_some, found]
      · rw [if_neg isNew, link_of_ne _ _ (fun same => isNew same.2.symm)]
        by_cases isOld : key = last
        · rw [if_pos isOld, <- isOld, link_self]
          rfl
        · rw [if_neg isOld, link_of_ne _ _ (fun same => isOld same.2.symm), bind_some,
            walk_concat, reached]
          rfl
    · rw [formerPath_concat here]
      cases former : formerPath path key newKey front with
      | none => rfl
      | some before =>
        rw [bind_some, map_some, bind_some, walk_concat]
        cases parentFound : walk child root before with
        | none => rfl
        | some parent =>
          have apart : parent ≠ directory := by
            rintro rfl
            exact formerPath_ne here former (named.walk_injective parentFound reached)
          rw [bind_some, bind_some, link_of_ne _ _ (fun same => apart same.1),
            link_of_ne _ _ (fun same => apart same.1)]

end

/-!
## Ordered tables of a hierarchy

The nodes of a hierarchy in the order in which they were made, each with its path, the
label it is listed under and its contents.  In a table every path occurs once, the root
is there, and what stands above a node is a branch.  The operations keep that, and each
of them changes what is found at one path; a rename moves what is found below it too.
-/

structure Entry (Key Label Content : Type) where
  path : List Key
  label : Label
  content : Content
  deriving DecidableEq

variable {Key Label Content : Type} {branch : Content -> Bool}

structure Formed (branch : Content -> Bool) (entries : List (Entry Key Label Content)) :
    Prop where
  distinct : (entries.map Entry.path).Nodup
  rooted : ∃ entry ∈ entries, entry.path = [] ∧ branch entry.content = true
  parents : ∀ entry ∈ entries, entry.path ≠ [] ->
    ∃ parent ∈ entries, parent.path = entry.path.dropLast ∧ branch parent.content = true

structure Table (Key Label Content : Type) (branch : Content -> Bool) where
  entries : List (Entry Key Label Content)
  formed : Formed branch entries

variable {content : Content}

namespace Table

variable [DecidableEq Key]

def find (table : Table Key Label Content branch) (path : List Key) : Option Content :=
  (table.entries.find? (fun entry => entry.path = path)).map Entry.content

/-- The nodes right below a path, in their order. -/
def children (table : Table Key Label Content branch) (path : List Key) :
    List (Entry Key Label Content) :=
  table.entries.filter (fun entry => entry.path ≠ [] ∧ entry.path.dropLast = path)

variable {table : Table Key Label Content branch} {path : List Key}

theorem find_eq_some : table.find path = some content <->
      ∃ entry ∈ table.entries, entry.path = path ∧ entry.content = content := by
  unfold find
  constructor
  · intro found
    rcases Option.map_eq_some_iff.mp found with ⟨entry, first, rfl⟩
    exact ⟨entry, mem_of_find?_eq_some first, by simpa using find?_some first, rfl⟩
  · rintro ⟨entry, listed, rfl, rfl⟩
    cases first : table.entries.find? (fun other => other.path = entry.path) with
    | none =>
      have absent := find?_eq_none.mp first entry listed
      simp at absent
    | some other =>
      have same : other.path = entry.path := by simpa using find?_some first
      have equal := inj_on_of_nodup_map table.formed.distinct
        (mem_of_find?_eq_some first) listed same
      rw [equal]
      rfl

theorem find_eq_none : table.find path = none <-> ∀ entry ∈ table.entries, entry.path ≠ path := by
  unfold find
  rw [Option.map_eq_none_iff, find?_eq_none]
  simp

/-- Two tables with entries that correspond find the same. -/
theorem find_congr {table other : Table Key Label Content branch} {path earlier : List Key}
    (same : ∀ content,
      (∃ entry ∈ other.entries, entry.path = path ∧ entry.content = content) <->
      ∃ entry ∈ table.entries, entry.path = earlier ∧
        entry.content = content) : other.find path = table.find earlier := by
  refine Option.ext fun content => ?_
  rw [find_eq_some, find_eq_some]
  exact same content

/-- What stands above a node is a branch. -/
theorem find_parent {key : Key} (found : table.find (path ++ [key]) = some content) :
    ∃ parent, table.find path = some parent ∧ branch parent = true := by
  rcases find_eq_some.mp found with ⟨entry, listed, here, _⟩
  rcases table.formed.parents entry listed (by simp [here]) with ⟨parent, above, there, wide⟩
  rw [here, dropLast_concat] at there
  exact ⟨parent.content, find_eq_some.mpr ⟨parent, above, there, rfl⟩, wide⟩

theorem find_below_absent {table : Table Key Label Content branch} {path : List Key}
    (absent : table.find path = none) (rest : List Key) : table.find (path ++ rest) = none := by
  induction rest using reverseRecOn with
  | nil => rwa [append_nil]
  | append_singleton front last ih =>
    cases found : table.find (path ++ (front ++ [last])) with
    | none => rfl
    | some content =>
      rw [<- append_assoc] at found
      rcases find_parent found with ⟨parent, above, _⟩
      rw [ih] at above
      cases above

/-- Below a leaf there is nothing. -/
theorem find_below_leaf {table : Table Key Label Content branch} {path : List Key}
    (found : table.find path = some content) (leaf : branch content = false)
    {rest : List Key} (further : rest ≠ []) : table.find (path ++ rest) = none := by
  cases rest with
  | nil => exact absurd rfl further
  | cons key rest =>
    have next : table.find (path ++ [key]) = none := by
      cases there : table.find (path ++ [key]) with
      | none => rfl
      | some other =>
        rcases find_parent there with ⟨parent, above, wide⟩
        rw [found] at above
        cases above
        rw [leaf] at wide
        cases wide
    have all := find_below_absent next rest
    rwa [append_assoc, singleton_append] at all

theorem children_eq_nil :
    table.children path = [] <-> ∀ key, table.find (path ++ [key]) = none := by
  unfold children
  rw [filter_eq_nil_iff]
  constructor
  · intro none key
    rw [find_eq_none]
    intro entry listed here
    have absent := none entry listed
    simp [here] at absent
  · intro absent entry listed below
    simp only [ne_eq, decide_eq_true_eq] at below
    rcases below with ⟨inner, rfl⟩
    have missing := find_eq_none.mp (absent (entry.path.getLast inner)) entry listed
    rw [dropLast_append_getLast] at missing
    exact missing rfl

section

variable (table : Table Key Label Content branch) (path : List Key) (key : Key)

/-- Make a node below a branch. -/
def add (label : Label) (content : Content) (wide : (table.find path).any branch = true)
    (absent : table.find (path ++ [key]) = none) : Table Key Label Content branch where
  entries := table.entries ++ [⟨path ++ [key], label, content⟩]
  formed := by
    rcases (Option.any_eq_true _ _).mp wide with ⟨above, found, wide⟩
    rcases find_eq_some.mp found with ⟨parent, listed, here, rfl⟩
    refine ⟨?_, ?_, ?_⟩
    · rw [map_append, nodup_append]
      refine ⟨table.formed.distinct, nodup_singleton _, ?_⟩
      intro old known new made
      rcases mem_map.mp known with ⟨entry, present, rfl⟩
      rw [map_singleton, mem_singleton] at made
      rw [made]
      exact find_eq_none.mp absent entry present
    · rcases table.formed.rooted with ⟨root, present, rest⟩
      exact ⟨root, mem_append_left _ present, rest⟩
    · intro entry either below
      rcases mem_append.mp either with old | new
      · rcases table.formed.parents entry old below with ⟨top, present, rest⟩
        exact ⟨top, mem_append_left _ present, rest⟩
      · rw [mem_singleton] at new
        refine ⟨parent, mem_append_left _ listed, ?_, wide⟩
        rw [new, here, dropLast_concat]

theorem find_add {label : Label} (wide : (table.find path).any branch = true)
    (absent : table.find (path ++ [key]) = none) (other : List Key) :
    (table.add path key label content wide absent).find other =
      if other = path ++ [key] then some content else table.find other := by
  by_cases here : other = path ++ [key]
  · rw [if_pos here, find_eq_some]
    exact ⟨_, mem_append_right _ (mem_singleton.mpr rfl), here.symm, rfl⟩
  · rw [if_neg here]
    refine find_congr fun found => ?_
    constructor
    · rintro ⟨entry, listed, rfl, rfl⟩
      rcases mem_append.mp listed with old | new
      · exact ⟨entry, old, rfl, rfl⟩
      · rw [mem_singleton] at new
        exact absurd (by rw [new]) here
    · rintro ⟨entry, listed, same, rfl⟩
      exact ⟨entry, mem_append_left _ listed, same, rfl⟩

end

section

variable (table : Table Key Label Content branch) (path : List Key) {change : Content -> Content}

/-- Change what stands at a path. -/
def put (change : Content -> Content)
    (same : forall content, branch (change content) = branch content) :
    Table Key Label Content branch where
  entries := table.entries.map (fun entry =>
    if entry.path = path then { entry with content := change entry.content } else entry)
  formed := by
    have paths : forall entry : Entry Key Label Content,
        (if entry.path = path then { entry with content := change entry.content }
          else entry).path = entry.path := by
      intro entry
      split <;> rfl
    have kinds : forall entry : Entry Key Label Content,
        branch (if entry.path = path then { entry with content := change entry.content }
          else entry).content = branch entry.content := by
      intro entry
      split
      · exact same entry.content
      · rfl
    refine ⟨?_, ?_, ?_⟩
    · rw [List.map_map]
      refine (congrArg List.Nodup (map_congr_left fun entry _ => paths entry)).mpr ?_
      exact table.formed.distinct
    · rcases table.formed.rooted with ⟨root, listed, top, wide⟩
      exact ⟨_, mem_map_of_mem listed, (paths root).trans top, (kinds root).trans wide⟩
    · intro entry listed below
      rcases mem_map.mp listed with ⟨old, present, rfl⟩
      rw [paths] at below
      rcases table.formed.parents old present below with ⟨parent, above, there, wide⟩
      refine ⟨_, mem_map_of_mem above, ?_, (kinds parent).trans wide⟩
      rw [paths, paths, there]

theorem find_put (same : ∀ content, branch (change content) = branch content) (other : List Key) :
    (table.put path change same).find other =
      if other = path then (table.find path).map change else table.find other := by
  by_cases here : other = path
  · rw [if_pos here, here]
    refine Option.ext fun content => ?_
    rw [find_eq_some, Option.map_eq_some_iff]
    constructor
    · rintro ⟨entry, listed, there, rfl⟩
      rcases mem_map.mp listed with ⟨old, present, rfl⟩
      by_cases at_path : old.path = path
      · rw [if_pos at_path]
        exact ⟨old.content, find_eq_some.mpr ⟨old, present, at_path, rfl⟩, rfl⟩
      · rw [if_neg at_path] at there
        exact absurd there at_path
    · rintro ⟨before, found, rfl⟩
      rcases find_eq_some.mp found with ⟨old, present, at_path, rfl⟩
      refine ⟨_, mem_map_of_mem present, ?_, ?_⟩
      · rw [if_pos at_path]
        exact at_path
      · rw [if_pos at_path]
  · rw [if_neg here]
    refine find_congr fun found => ?_
    constructor
    · rintro ⟨entry, listed, rfl, rfl⟩
      rcases mem_map.mp listed with ⟨old, present, rfl⟩
      by_cases at_path : old.path = path
      · rw [if_pos at_path] at here
        exact absurd at_path here
      · rw [if_neg at_path]
        exact ⟨old, present, rfl, rfl⟩
    · rintro ⟨old, present, rfl, rfl⟩
      refine ⟨_, mem_map_of_mem present, ?_, ?_⟩
      · rw [if_neg here]
      · rw [if_neg here]

end

section

variable (table : Table Key Label Content branch) (path : List Key)

/-- Take a node without children out. -/
def erase (inner : path ≠ []) (empty : table.children path = []) :
    Table Key Label Content branch where
  entries := table.entries.filter (fun entry => entry.path ≠ path)
  formed := by
    refine ⟨?_, ?_, ?_⟩
    · exact table.formed.distinct.sublist (filter_sublist.map _)
    · rcases table.formed.rooted with ⟨root, listed, top, wide⟩
      refine ⟨root, mem_filter.mpr ⟨listed, ?_⟩, top, wide⟩
      rw [decide_eq_true_eq, top]
      exact fun same => inner same.symm
    · intro entry kept below
      rw [mem_filter] at kept
      rcases table.formed.parents entry kept.1 below with ⟨parent, above, there, wide⟩
      refine ⟨parent, mem_filter.mpr ⟨above, ?_⟩, there, wide⟩
      rw [decide_eq_true_eq]
      intro here
      have absent := filter_eq_nil_iff.mp empty entry kept.1
      rw [decide_eq_true_eq] at absent
      exact absent ⟨below, there.symm.trans here⟩

theorem find_erase (inner : path ≠ []) (empty : table.children path = []) (other : List Key) :
    (table.erase path inner empty).find other = if other = path then none else table.find other := by
  by_cases here : other = path
  · rw [if_pos here, find_eq_none]
    intro entry kept there
    rw [erase, mem_filter, decide_eq_true_eq] at kept
    exact kept.2 (there.trans here)
  · rw [if_neg here]
    refine find_congr fun found => ?_
    constructor
    · rintro ⟨entry, kept, there, rfl⟩
      exact ⟨entry, (mem_filter.mp kept).1, there, rfl⟩
    · rintro ⟨entry, listed, there, rfl⟩
      refine ⟨entry, mem_filter.mpr ⟨listed, ?_⟩, there, rfl⟩
      rw [decide_eq_true_eq, there]
      exact here

end

variable (table : Table Key Label Content branch) (path : List Key) (key newKey : Key)

/-- The path of a node after a key was changed. -/
def latterPath (path : List Key) (key newKey : Key) (keys : List Key) : List Key :=
  if path ++ [key] <+: keys then path ++ newKey :: keys.drop (path.length + 1) else keys

omit [DecidableEq Key] in
theorem drop_below (path rest : List Key) (key : Key) :
    (path ++ key :: rest).drop (path.length + 1) = rest := by
  rw [append_cons]
  exact drop_left' (by simp)

omit [DecidableEq Key] in
theorem below_iff {path keys : List Key} {key : Key} :
    path ++ [key] <+: keys <-> ∃ rest, keys = path ++ key :: rest := by
  constructor
  · rintro ⟨rest, rfl⟩
    exact ⟨rest, by simp⟩
  · rintro ⟨rest, rfl⟩
    exact ⟨rest, by simp⟩

theorem latterPath_below (rest : List Key) :
    latterPath path key newKey (path ++ key :: rest) = path ++ newKey :: rest := by
  rw [latterPath, if_pos (below_iff.mpr ⟨rest, rfl⟩), drop_below]

variable {path key newKey}

/-- Among paths that are not below the new key, a path is where its former path goes. -/
theorem latterPath_eq_iff {keys other : List Key} (unused : ¬ path ++ [newKey] <+: keys) :
    latterPath path key newKey keys = other <-> formerPath path key newKey other = some keys := by
  by_cases old : path ++ [key] <+: keys
  · rcases below_iff.mp old with ⟨rest, rfl⟩
    rw [latterPath_below, formerPath]
    constructor
    · rintro rfl
      rw [if_pos (below_iff.mpr ⟨rest, rfl⟩), drop_below]
    · intro former
      split at former
      · next new =>
          rcases below_iff.mp new with ⟨others, rfl⟩
          rw [drop_below, Option.some.injEq, append_cancel_left_eq, cons.injEq] at former
          rw [former.2]
      · split at former
        · cases former
        · next notOld =>
            cases former
            exact absurd old notOld
  · rw [latterPath, if_neg old, formerPath]
    constructor
    · rintro rfl
      rw [if_neg unused, if_neg old]
    · intro former
      split at former
      · next new =>
          rcases below_iff.mp new with ⟨others, rfl⟩
          rw [drop_below, Option.some.injEq] at former
          exact absurd (below_iff.mpr ⟨others, former.symm⟩) old
      · split at former
        · cases former
        · cases former
          rfl

theorem not_below_of_absent {table : Table Key Label Content branch}
    (unused : table.find (path ++ [newKey]) = none) :
    ∀ entry ∈ table.entries, ¬ path ++ [newKey] <+: entry.path := by
  intro entry listed below
  rcases below_iff.mp below with ⟨rest, here⟩
  have absent := find_below_absent unused rest
  rw [append_assoc, singleton_append] at absent
  exact find_eq_none.mp absent entry listed here

variable (path key newKey)

/-- Give a node another key in its place. -/
def rename (newLabel : Label) (unused : table.find (path ++ [newKey]) = none) :
    Table Key Label Content branch where
  entries := table.entries.map (fun entry =>
    { entry with
      path := latterPath path key newKey entry.path
      label := if entry.path = path ++ [key] then newLabel else entry.label })
  formed := by
    have clear := not_below_of_absent unused
    refine ⟨?_, ?_, ?_⟩
    · rw [List.map_map]
      refine List.Nodup.map_on ?_ (List.Nodup.of_map _ table.formed.distinct)
      intro first listed second known same
      change latterPath path key newKey first.path = latterPath path key newKey second.path at same
      have former := (latterPath_eq_iff (clear first listed)).mp same
      rw [(latterPath_eq_iff (clear second known)).mp rfl, Option.some.injEq] at former
      exact inj_on_of_nodup_map table.formed.distinct listed known former.symm
    · rcases table.formed.rooted with ⟨root, listed, top, wide⟩
      refine ⟨_, mem_map_of_mem listed, ?_, wide⟩
      change latterPath path key newKey root.path = []
      rw [top, latterPath, if_neg]
      intro below
      simpa using below.length_le
    · intro entry listed below
      rcases mem_map.mp listed with ⟨old, present, rfl⟩
      have inner : old.path ≠ [] := by
        intro top
        apply below
        change latterPath path key newKey old.path = []
        rw [top, latterPath, if_neg]
        intro under
        simpa using under.length_le
      rcases table.formed.parents old present inner with ⟨parent, above, there, wide⟩
      refine ⟨_, mem_map_of_mem above, ?_, wide⟩
      change latterPath path key newKey parent.path = (latterPath path key newKey old.path).dropLast
      rw [there]
      by_cases moved : path ++ [key] <+: old.path
      · rcases below_iff.mp moved with ⟨rest, here⟩
        rw [here, latterPath_below]
        cases rest using reverseRecOn with
        | nil =>
          rw [dropLast_concat, dropLast_concat, latterPath, if_neg (not_prefix_self path key)]
        | append_singleton front last =>
          rw [<- cons_append, <- append_assoc, dropLast_concat, latterPath_below,
            <- cons_append, <- append_assoc, dropLast_concat]
      · have above' : ¬ path ++ [key] <+: old.path.dropLast :=
          fun under => moved (under.trans ( dropLast_prefix _))
        rw [latterPath, latterPath, if_neg moved, if_neg above']

theorem find_rename {newLabel : Label} (unused : table.find (path ++ [newKey]) = none)
    (keys : List Key) :
    (table.rename path key newKey newLabel unused).find keys =
      (formerPath path key newKey keys).bind table.find := by
  have clear := not_below_of_absent unused
  refine Option.ext fun content => ?_
  rw [find_eq_some, Option.bind_eq_some_iff]
  constructor
  · rintro ⟨entry, listed, there, rfl⟩
    rcases mem_map.mp listed with ⟨old, present, rfl⟩
    have former := (latterPath_eq_iff (clear old present)).mp there
    exact ⟨old.path, former, find_eq_some.mpr ⟨old, present, rfl, rfl⟩⟩
  · rintro ⟨earlier, former, found⟩
    rcases find_eq_some.mp found with ⟨old, present, rfl, rfl⟩
    have there := (latterPath_eq_iff (clear old present)).mpr former
    exact ⟨_, mem_map_of_mem present, there, rfl⟩

end Table

end CoolOs.Naming
