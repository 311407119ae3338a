import QueueBoard.Scalar
/-!
# Cluster metrics

Counters of a whole cluster, one record per snapshot.
-/

namespace QueueBoard

/-- The counters of a cluster. -/
structure ClusterMetrics (α : Type) where
  appsSubmitted : α
  appsCompleted : α
  appsPending : α
  appsRunning : α
  appsFailed : α
  appsKilled : α
  reservedMB : α
  availableMB : α
  allocatedMB : α
  totalMB : α
  reservedVirtualCores : α
  availableVirtualCores : α
  allocatedVirtualCores : α
  totalVirtualCores : α
  containersAllocated : α
  containersReserved : α
  containersPending : α
  totalNodes : α
  activeNodes : α
  lostNodes : α
  unhealthyNodes : α
  decommissionedNodes : α
  rebootedNodes : α
  deriving Repr, DecidableEq

/-- What a cluster hands out. -/
inductive Resource where
  | memory
  | virtualCores
  deriving Repr, BEq, DecidableEq

namespace Resource

/-- Every resource, in the order of their charts. -/
def all : List Resource := [memory, virtualCores]

/-- The name of a resource. -/
def name : Resource → String
  | .memory => "Memory"
  | .virtualCores => "VCores"

/-- What a resource is counted in, if it is not itself. -/
def unit? : Resource → Option String
  | .memory => some "MB"
  | .virtualCores => none

end Resource

namespace ClusterMetrics

variable {α : Type}

/-- Every counter the same. -/
def constant (x : α) : ClusterMetrics α :=
  ⟨x, x, x, x, x, x, x, x, x, x, x, x, x, x, x, x, x, x, x, x, x, x, x⟩

/-- The counters of no cluster. -/
def zero [Scalar α] : ClusterMetrics α := constant 0

/-- How much of a resource is in use. -/
def allocated (m : ClusterMetrics α) : Resource → α
  | .memory => m.allocatedMB
  | .virtualCores => m.allocatedVirtualCores

/-- How much of a resource is kept for someone. -/
def reserved (m : ClusterMetrics α) : Resource → α
  | .memory => m.reservedMB
  | .virtualCores => m.reservedVirtualCores

/-- How much of a resource is free. -/
def available (m : ClusterMetrics α) : Resource → α
  | .memory => m.availableMB
  | .virtualCores => m.availableVirtualCores

/-- How much of a resource there is. -/
def total (m : ClusterMetrics α) : Resource → α
  | .memory => m.totalMB
  | .virtualCores => m.totalVirtualCores

/-- A counter with the name it has in snapshots, and the metrics with it replaced. -/
structure Counter (α : Type) where
  name : String
  get : ClusterMetrics α → α
  set : α → ClusterMetrics α → ClusterMetrics α

/-- Every counter, in the order of their declaration. -/
def counters : List (Counter α) :=
  [⟨"appsSubmitted", (·.appsSubmitted), fun v m => { m with appsSubmitted := v }⟩,
    ⟨"appsCompleted", (·.appsCompleted), fun v m => { m with appsCompleted := v }⟩,
    ⟨"appsPending", (·.appsPending), fun v m => { m with appsPending := v }⟩,
    ⟨"appsRunning", (·.appsRunning), fun v m => { m with appsRunning := v }⟩,
    ⟨"appsFailed", (·.appsFailed), fun v m => { m with appsFailed := v }⟩,
    ⟨"appsKilled", (·.appsKilled), fun v m => { m with appsKilled := v }⟩,
    ⟨"reservedMB", (·.reservedMB), fun v m => { m with reservedMB := v }⟩,
    ⟨"availableMB", (·.availableMB), fun v m => { m with availableMB := v }⟩,
    ⟨"allocatedMB", (·.allocatedMB), fun v m => { m with allocatedMB := v }⟩,
    ⟨"totalMB", (·.totalMB), fun v m => { m with totalMB := v }⟩,
    ⟨"reservedVirtualCores", (·.reservedVirtualCores),
      fun v m => { m with reservedVirtualCores := v }⟩,
    ⟨"availableVirtualCores", (·.availableVirtualCores),
      fun v m => { m with availableVirtualCores := v }⟩,
    ⟨"allocatedVirtualCores", (·.allocatedVirtualCores),
      fun v m => { m with allocatedVirtualCores := v }⟩,
    ⟨"totalVirtualCores", (·.totalVirtualCores), fun v m => { m with totalVirtualCores := v }⟩,
    ⟨"containersAllocated", (·.containersAllocated),
      fun v m => { m with containersAllocated := v }⟩,
    ⟨"containersReserved", (·.containersReserved), fun v m => { m with containersReserved := v }⟩,
    ⟨"containersPending", (·.containersPending), fun v m => { m with containersPending := v }⟩,
    ⟨"totalNodes", (·.totalNodes), fun v m => { m with totalNodes := v }⟩,
    ⟨"activeNodes", (·.activeNodes), fun v m => { m with activeNodes := v }⟩,
    ⟨"lostNodes", (·.lostNodes), fun v m => { m with lostNodes := v }⟩,
    ⟨"unhealthyNodes", (·.unhealthyNodes), fun v m => { m with unhealthyNodes := v }⟩,
    ⟨"decommissionedNodes", (·.decommissionedNodes),
      fun v m => { m with decommissionedNodes := v }⟩,
    ⟨"rebootedNodes", (·.rebootedNodes), fun v m => { m with rebootedNodes := v }⟩]

end ClusterMetrics

end QueueBoard
