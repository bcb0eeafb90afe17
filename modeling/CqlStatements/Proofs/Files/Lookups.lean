import CqlStatements.Files

/-!
# What a walk looks at

A walk looks up one address after another, each below or beside what it found before. Two trees that have
the same nodes at these addresses lead a path to the same, whatever else they hold. So a file that a path
does not come to may be changed, added or taken away.
-/
namespace CqlStatements.Files.Tree

/-- The addresses that a walk looks up, in order. -/
def lookups (tree : Tree) (directory : Address) : List String → List Address
  | [] => []
  | part :: rest =>
      if isStay part then lookups tree directory rest
      else if part = ".." then lookups tree directory.dropLast rest
      else if nameLimit < part.utf8ByteSize then []
      else
        (directory ++ [part]) ::
          match tree.node? (directory ++ [part]) with
          | some .directory => lookups tree (directory ++ [part]) rest
          | some (.link target) => lookups tree target rest
          | some (.leaf _) | none => []

variable {tree other : Tree}

theorem walk_congr {directory : Address} {parts : List String}
    (same : ∀ address ∈ tree.lookups directory parts, tree.node? address = other.node? address) :
    tree.walk directory parts = other.walk directory parts := by
  induction parts generalizing directory with
  | nil => rfl
  | cons part rest ih =>
      rw [lookups] at same
      rw [walk, walk]
      split
      · rename_i stay
        rw [if_pos stay] at same
        exact ih same
      · rename_i moves
        rw [if_neg moves] at same
        split
        · rename_i up
          rw [if_pos up] at same
          exact ih same
        · rename_i down
          rw [if_neg down] at same
          split
          · rfl
          · rename_i fits
            rw [if_neg fits, List.forall_mem_cons] at same
            rw [← same.1]
            cases found : tree.node? (directory ++ [part]) with
            | none => rfl
            | some node =>
                rw [found] at same
                cases node with
                | directory => exact ih same.2
                | link target => exact ih same.2
                | leaf entry => rfl

/-- The directory that the walk of a path begins in. -/
def start (workingDirectory : Address) (path : String) : Address :=
  if path.toList.head? = some '/' then [] else workingDirectory

/-- The addresses that are looked up for a path. -/
def pathLookups (tree : Tree) (workingDirectory : Address) (path : String) : List Address :=
  tree.lookups (start workingDirectory path) (Text.split '/' path)

/-- The walk of a single name looks at no other place. -/
theorem pathLookups_subset {workingDirectory : Address} {name : String}
    (relative : name.toList.head? ≠ some '/') (single : Text.split '/' name = [name]) :
    tree.pathLookups workingDirectory name ⊆ [workingDirectory ++ [name]] := by
  rw [pathLookups, start, if_neg relative, single, lookups]
  split
  · exact List.nil_subset _
  · split
    · exact List.nil_subset _
    · split
      · exact List.nil_subset _
      · split <;> exact List.Subset.refl _

/-- A path leads to the same in trees that agree on what is looked up for it. -/
theorem entry_congr {workingDirectory : Address} {path : String}
    (same : ∀ address ∈ tree.pathLookups workingDirectory path,
      tree.node? address = other.node? address) :
    tree.entry workingDirectory path = other.entry workingDirectory path := by
  rw [pathLookups, start] at same
  rw [entry, entry]
  split
  · rfl
  · split
    · rfl
    · split
      · rename_i rooted
        rw [if_pos rooted] at same
        exact walk_congr same
      · rename_i relative
        rw [if_neg relative] at same
        exact walk_congr same

end CqlStatements.Files.Tree
