import NexusPanel.Panel.HeartbeatDto
import NexusPanel.Wings.Heartbeat

/-!
# Heartbeats that the panel accepts

The payload of Wings as the panel's `ValidationPipe` sees it. Everything in it satisfies its
decorators by construction, except the processor percentage: the two differences it is computed
from saturate one by one, so the idle time can exceed the total, and a negative percentage is
refused.
-/

namespace Joint

open Panel Wings.Heartbeat

/-- The body as serde writes it, in camel case. -/
def toBody (p : Payload) : List (String × JsValue) :=
  [("version", .str p.version),
    ("totalMemory", .number (.ofNat p.totalMemory)),
    ("usedMemory", .number (.ofNat p.usedMemory)),
    ("totalDisk", .number (.ofNat p.totalDisk)),
    ("usedDisk", .number (.ofNat p.usedDisk)),
    ("cpuPercent", .number (.finite p.cpuPercent)),
    ("servers", .arr (p.servers.map fun s => .obj [("uuid", .str s.uuid), ("state", .str s.state)]))]

/-- The panel accepts the heartbeat. -/
def Accepted (p : Payload) : Prop := HeartbeatDto.errors (toBody p) = []

/-- The servers of a payload are always in order. -/
theorem nestedErrors_servers (p : Payload) :
    ((toBody p).lookup "servers").map (HeartbeatDto.nestedErrors "servers") = some [] := by
  have hservers : ((toBody p).lookup "servers") = some (.arr (p.servers.map fun s =>
      .obj [("uuid", .str s.uuid), ("state", .str s.state)])) := rfl
  rw [hservers, Option.map_some, HeartbeatDto.nestedErrors]
  congr 1
  refine HeartbeatDto.elementErrors_eq_nil (fun item hitem => ?_) "servers" 0
  obtain ⟨s, -, rfl⟩ := List.mem_map.mp hitem
  exact ⟨_, rfl, rfl⟩

/-- The percentage is in order when it is one. -/
theorem cpuPercent_iff (p : Payload) :
    HeartbeatDto.propertyErrors (toBody p)
      ⟨"cpuPercent", false, [.isNumber, .min 0, .max 100]⟩ = [] ↔
        0 ≤ p.cpuPercent ∧ p.cpuPercent ≤ 100 := by
  have hlookup : (toBody p).lookup "cpuPercent" = some (.number (.finite p.cpuPercent)) := rfl
  have hnumber : HeartbeatDto.Decorator.holds .isNumber
      (some (.number (.finite p.cpuPercent))) = true := rfl
  rw [HeartbeatDto.propertyErrors_eq_nil rfl, hlookup]
  simp only [List.forall_mem_cons, hnumber, HeartbeatDto.holds_min, HeartbeatDto.holds_max,
    Int.cast_zero, Int.cast_ofNat, true_and, List.not_mem_nil, false_implies, implies_true,
    and_true]

/-- A quantity in bytes is always in order. -/
theorem quantity_ok {p : Payload} {name : String} {n : Nat}
    (hlookup : (toBody p).lookup name = some (.number (.ofNat n))) :
    HeartbeatDto.propertyErrors (toBody p) ⟨name, false, [.isNumber, .min 0]⟩ = [] := by
  have hnumber : HeartbeatDto.Decorator.holds .isNumber (some (.number (.ofNat n))) = true := rfl
  rw [HeartbeatDto.propertyErrors_eq_nil rfl, hlookup]
  simp only [List.forall_mem_cons, hnumber, HeartbeatDto.holds_min_ofNat, true_and,
    List.not_mem_nil, false_implies, implies_true]

/-- A payload is accepted exactly when its percentage is one. -/
theorem accepted_iff (p : Payload) : Accepted p ↔ 0 ≤ p.cpuPercent ∧ p.cpuPercent ≤ 100 := by
  have hundeclared : HeartbeatDto.undeclared HeartbeatDto.properties (toBody p) = [] := rfl
  have hversion : HeartbeatDto.propertyErrors (toBody p) ⟨"version", false, [.isString]⟩ = [] := rfl
  have hservers : HeartbeatDto.propertyErrors (toBody p) ⟨"servers", false, [.isArray]⟩ = [] := rfl
  rw [Accepted, HeartbeatDto.errors, nestedErrors_servers, Option.getD_some, List.append_nil,
    HeartbeatDto.classErrors_eq_nil, and_iff_right hundeclared, ← cpuPercent_iff]
  simp only [HeartbeatDto.properties, List.forall_mem_cons, hversion, hservers,
    @quantity_ok p "totalMemory" _ rfl, @quantity_ok p "usedMemory" _ rfl,
    @quantity_ok p "totalDisk" _ rfl, @quantity_ok p "usedDisk" _ rfl,
    true_and, List.not_mem_nil, false_implies, implies_true, and_true]

/-- For every reading of memory, disk and containers and every two samples of the processor
counters: the panel accepts the heartbeat that Wings builds of them if and only if between the
samples the idle counter has not grown by more than all counters together. -/
theorem heartbeat_accepted_iff (version : String) (r : Readings) :
    Accepted (sendHeartbeat version r) ↔ IdleWithinTotal r.firstStat r.secondStat := by
  obtain ⟨hmin, hmax⟩ := readCpuUsage_bounds r.firstStat r.secondStat
  rw [accepted_iff]
  exact (and_iff_left hmax).trans hmin

/-! ## A counter that decreases -/

/-- Between two samples the idle counter grows by 100 and the one for waiting decreases by 50,
which the kernel allows. -/
def waitingDecreases : Readings where
  meminfo := some "MemTotal: 8000 kB\nMemAvailable: 6000 kB\n"
  statvfs := some ⟨1000, 4096, 400⟩
  firstStat := some "cpu  500 0 300 1000 200 0 0 0 0 0\n"
  secondStat := some "cpu  500 0 300 1100 150 0 0 0 0 0\n"
  containers := some []

theorem negative_share_refused : ¬ Accepted (sendHeartbeat "0.1.0" waitingDecreases) := by
  intro h
  have hmin := ((accepted_iff _).mp h).1
  have hshare : (sendHeartbeat "0.1.0" waitingDecreases).cpuPercent = -100 := by decide +kernel
  rw [hshare] at hmin
  exact absurd hmin (by decide)

end Joint
