import CqlStatements.Proofs.Config.Acceptance

/-!
# Contact points

A host keeps its place whatever hosts stand in front of it, and its port is looked up at that place. Only
then are the blank hosts left out. So the contact points are the other hosts in order, each with the port
of its own place, and there are none exactly if the settings are refused for want of a host.
-/
namespace CqlStatements.Config

variable {c : Config}

section Places

/-- The host is nothing but blanks. -/
def isBlankHost (host : String) : Bool := (Text.trim host).isEmpty

theorem isBlankHost_iff {host : String} : isBlankHost host = true ↔ Text.trim host = "" :=
  String.isEmpty_iff

/-- The hosts that are contact points, each with its place. -/
def placed (c : Config) : List (String × ℕ) := c.hosts.zipIdx.filter fun entry => !isBlankHost entry.1

theorem mem_placed_iff {host : String} {place : ℕ} :
    (host, place) ∈ c.placed ↔ c.hosts[place]? = some host ∧ Text.trim host ≠ "" := by
  rw [placed, List.mem_filter, List.mk_mem_zipIdx_iff_getElem?, Bool.not_eq_true', Bool.eq_false_iff,
    ne_eq, isBlankHost_iff]

theorem nodes_eq_map (c : Config) :
    c.nodes = c.placed.map fun entry => ⟨Text.trim entry.1, c.portAt entry.2⟩ := by
  rw [nodes, placed]
  induction c.hosts.zipIdx with
  | nil => rfl
  | cons entry entries ih =>
      rw [List.filterMap_cons, List.filter_cons]
      cases blank : (Text.trim entry.1).isEmpty with
      | true => simp only [isBlankHost, blank, if_true, Bool.not_true, Bool.false_eq_true, if_false, ih]
      | false =>
          simp only [isBlankHost, blank, Bool.false_eq_true, if_false, Bool.not_false, if_true,
            List.map_cons, ih]

theorem hosts_nodes (c : Config) :
    c.nodes.map Node.host = (c.hosts.map Text.trim).filter fun host => !host.isEmpty := by
  have hosts : c.placed.map Prod.fst = c.hosts.filter fun host => !isBlankHost host := by
    conv_rhs => rw [← List.zipIdx_map_fst 0 c.hosts, List.filter_map]
    simp only [placed, Function.comp_def]
  calc c.nodes.map Node.host
      = (c.placed.map Prod.fst).map Text.trim := by
        simp only [nodes_eq_map, List.map_map, Function.comp_def]
    _ = (c.hosts.filter fun host => !isBlankHost host).map Text.trim := by rw [hosts]
    _ = (c.hosts.map Text.trim).filter fun host => !host.isEmpty := by
        simp only [List.filter_map, isBlankHost, Function.comp_def]

theorem sorted_places (c : Config) : (c.placed.map Prod.snd).Pairwise (· < ·) := by
  have all : (c.hosts.zipIdx.map Prod.snd).Pairwise (· < ·) := by
    rw [List.zipIdx_map_snd]
    exact List.pairwise_lt_range'
  exact all.sublist (List.filter_sublist.map Prod.snd)

end Places

/-- The contact point of the host at a place. Without a port at that place the first port is taken, and
9042 if there are no ports. -/
structure ContactAt (c : Config) (place : ℕ) (node : Node) : Prop where
  host : ∃ host, c.hosts[place]? = some host ∧ node.host = Text.trim host
  own_port : ∀ port, c.ports[place]? = some port → node.port = port
  first_port : c.ports[place]? = none → ∀ port, c.ports.head? = some port → node.port = port
  default_port : c.ports = [] → node.port = 9042

theorem contactAt_of_mem {entry : String × ℕ} (mem : entry ∈ c.placed) :
    ContactAt c entry.2 ⟨Text.trim entry.1, c.portAt entry.2⟩ := by
  obtain ⟨host, place⟩ := entry
  have at_place := (mem_placed_iff.mp mem).1
  constructor
  · exact ⟨host, at_place, rfl⟩
  · intro port own
    simp only [portAt, own, Option.getD_some]
  · intro none port first
    simp only [portAt, none, first, Option.getD_none, Option.getD_some]
  · intro empty
    simp only [portAt, empty, List.getElem?_nil, List.head?_nil, Option.getD_none]
    rfl

section Hosts

theorem nodes_eq_nil_iff : c.nodes = [] ↔ ∀ host ∈ c.hosts, Text.trim host = "" := by
  rw [← List.map_eq_nil_iff (f := Node.host), hosts_nodes, List.filter_eq_nil_iff, List.forall_mem_map]
  simp only [Bool.not_eq_true, Bool.not_eq_false', String.isEmpty_iff]

theorem validate_eq_noHost_iff :
    c.validate = .error .noHost ↔ ∀ host ∈ c.hosts, Text.trim host = "" := by
  simp only [← isBlankHost_iff, ← List.all_eq_true]
  unfold validate
  split
  · rename_i blank
    exact iff_of_true rfl blank
  · rename_i some
    refine iff_of_false ?_ some
    split <;> simp

end Hosts

/-- The contact points are the hosts that are not blank, in order and each with its own port, and settings
without any are refused. -/
theorem nodes_exact (c : Config) :
    c.nodes.map Node.host = (c.hosts.map Text.trim).filter (fun host => !host.isEmpty) ∧
      (∃ places : List ℕ, places.Pairwise (· < ·) ∧
        (∀ place, place ∈ places ↔ ∃ host, c.hosts[place]? = some host ∧ Text.trim host ≠ "") ∧
        List.Forall₂ (ContactAt c) places c.nodes) ∧
      (c.nodes = [] ↔ c.validate = .error .noHost) ∧
      ∀ text, ofTomlText text = .ok c → c.nodes ≠ [] := by
  have empty : c.nodes = [] ↔ c.validate = .error .noHost := by
    rw [nodes_eq_nil_iff, validate_eq_noHost_iff]
  refine ⟨hosts_nodes c, ⟨c.placed.map Prod.snd, sorted_places c, ?_, ?_⟩, empty, ?_⟩
  · intro place
    simp only [List.mem_map, Prod.exists, exists_eq_right, mem_placed_iff]
  · rw [nodes_eq_map, List.forall₂_map_left_iff, List.forall₂_map_right_iff, List.forall₂_same]
    exact fun entry mem => contactAt_of_mem mem
  · intro text accepted none
    obtain ⟨entries, -, -, valid⟩ := ofTomlText_eq_ok_iff.mp accepted
    rw [empty, valid] at none
    simp at none

/-- A blank host in front and one in between. -/
def patchy : Config := { hosts := [" ", "a", "\t", " b ", "a"], ports := [1, 2, 3, 4] }

def patchyText : String := "hosts = [\" \", \"a\", \"\\t\", \" b \", \"a\"]\nports = [1, 2, 3, 4]\n"

theorem nodes_exact_patchy :
    ofTomlText patchyText = .ok patchy ∧ patchy.nodes = [⟨"a", 2⟩, ⟨"b", 4⟩, ⟨"a", 1⟩] ∧
      patchy.nodes ≠ [] ∧ patchy.validate ≠ .error .noHost := by
  have accepted : ofTomlText patchyText = .ok patchy := by decide +kernel
  obtain ⟨-, -, empty, found⟩ := nodes_exact patchy
  have some := found patchyText accepted
  exact ⟨accepted, by decide +kernel, some, mt empty.mpr some⟩

end CqlStatements.Config
