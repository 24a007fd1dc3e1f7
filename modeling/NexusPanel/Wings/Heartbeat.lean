import Mathlib.Data.Rat.Floor
import NexusPanel.Foundation.Text

/-!
# The heartbeat of Wings

What `send_heartbeat` reports to the panel, computed from what it reads: `/proc/meminfo`, the
result of `statvfs`, two samples of `/proc/stat` a moment apart, and the containers that Docker
lists. A file that cannot be read is absent. The counters are natural numbers and their
arithmetic does not overflow; percentages are exact.
-/

namespace Wings

namespace Heartbeat

/-! ## Memory and disk -/

def parseMeminfoValue (s : String) : Nat :=
  ((Text.splitWhitespace s).head?.bind Text.parseU64).getD 0

/-- What one line does to the total and the available kilobytes. -/
def readLine (figures : Nat × Nat) (line : String) : Nat × Nat :=
  match Text.stripPrefix? "MemTotal:" line with
  | some val => (parseMeminfoValue val, figures.2)
  | none =>
    match Text.stripPrefix? "MemAvailable:" line with
    | some val => (figures.1, parseMeminfoValue val)
    | none => figures

/-- Total and used memory in bytes. -/
def readMemoryInfo (meminfo : Option String) : Nat × Nat :=
  match meminfo with
  | none => (0, 0)
  | some content =>
    let (totalKb, availableKb) := (Text.lines content).foldl readLine (0, 0)
    (totalKb * 1024, totalKb * 1024 - availableKb * 1024)

structure Statvfs where
  blocks : Nat
  fragmentSize : Nat
  blocksAvailable : Nat
deriving DecidableEq, Repr

/-- Total and used disk space in bytes. -/
def readDiskUsage (stat : Option Statvfs) : Nat × Nat :=
  match stat with
  | some stat =>
    let total := stat.blocks * stat.fragmentSize
    (total, total - stat.blocksAvailable * stat.fragmentSize)
  | none => (0, 0)

/-! ## Processors -/

/-- The idle counter and the sum of all counters, from the first line of `/proc/stat`. -/
def sample (stat : Option String) : Option (Nat × Nat) := do
  let content ← stat
  let cpuLine ← (Text.lines content).head?
  let vals := ((Text.splitWhitespace cpuLine).drop 1).filterMap Text.parseU64
  let idle ← vals[3]?
  some (idle, vals.sum)

/-- The share of the time between two samples that was not idle, in percent. Each difference is
zero when its counter has decreased. -/
def readCpuUsage (first second : Option String) : Rat :=
  match sample first with
  | none => 0
  | some (idle1, total1) =>
    match sample second with
    | none => 0
    | some (idle2, total2) =>
      let idleDelta : Rat := (idle2 - idle1 : Nat)
      let totalDelta : Rat := (total2 - total1 : Nat)
      if totalDelta = 0 then 0 else (totalDelta - idleDelta) / totalDelta * 100

/-! ## The payload -/

/-- The part of a listed container that the heartbeat looks at. -/
structure ContainerSummary where
  labels : Option (List (String × String))
  state : Option String
deriving DecidableEq, Repr

structure ServerState where
  uuid : String
  state : String
deriving DecidableEq, Repr

structure Payload where
  version : String
  totalMemory : Nat
  usedMemory : Nat
  totalDisk : Nat
  usedDisk : Nat
  cpuPercent : Rat
  servers : List ServerState
deriving DecidableEq

/-- The containers with a server's uuid among their labels. -/
def serverStates (containers : Option (List ContainerSummary)) : List ServerState :=
  (containers.getD []).filterMap fun c =>
    (c.labels.bind fun labels => labels.lookup "nexus.server_uuid").map fun uuid =>
      ⟨uuid, c.state.getD "unknown"⟩

/-- What `send_heartbeat` reads. -/
structure Readings where
  meminfo : Option String
  statvfs : Option Statvfs
  firstStat : Option String
  secondStat : Option String
  containers : Option (List ContainerSummary)

def sendHeartbeat (version : String) (r : Readings) : Payload where
  version
  totalMemory := (readMemoryInfo r.meminfo).1
  usedMemory := (readMemoryInfo r.meminfo).2
  totalDisk := (readDiskUsage r.statvfs).1
  usedDisk := (readDiskUsage r.statvfs).2
  cpuPercent := readCpuUsage r.firstStat r.secondStat
  servers := serverStates r.containers

/-! ## The percentage -/

/-- Between the samples the idle counter has not grown by more than all counters together. -/
def IdleWithinTotal (first second : Option String) : Prop :=
  ∀ idle1 total1 idle2 total2, sample first = some (idle1, total1) →
    sample second = some (idle2, total2) → total1 < total2 → idle2 - idle1 ≤ total2 - total1

/-- A share of a positive whole, in percent, is at least zero when the part that is taken away
is at most the whole, and never more than a hundred. -/
theorem share_bounds {idle total : Nat} (htotal : 0 < total) :
    (0 ≤ ((total : Rat) - idle) / total * 100 ↔ idle ≤ total) ∧
      ((total : Rat) - idle) / total * 100 ≤ 100 := by
  have hpos : (0 : Rat) < total := Nat.cast_pos.mpr htotal
  have hcast : ((total : Rat) - idle) / total = 1 - idle / total := by
    rw [sub_div, div_self hpos.ne']
  have hidle : (0 : Rat) ≤ idle / total := div_nonneg (Nat.cast_nonneg _) hpos.le
  refine ⟨?_, ?_⟩
  · rw [hcast, mul_nonneg_iff_of_pos_right (by norm_num : (0 : Rat) < 100), sub_nonneg,
      div_le_one hpos, Nat.cast_le]
  · rw [hcast]
    linarith

theorem readCpuUsage_bounds (first second : Option String) :
    (0 ≤ readCpuUsage first second ↔ IdleWithinTotal first second) ∧
      readCpuUsage first second ≤ 100 := by
  unfold readCpuUsage IdleWithinTotal
  cases hfirst : sample first with
  | none => simp
  | some figures =>
    obtain ⟨idle1, total1⟩ := figures
    cases hsecond : sample second with
    | none => simp
    | some figures =>
      obtain ⟨idle2, total2⟩ := figures
      simp only [Option.some.injEq, Prod.mk.injEq, Nat.cast_eq_zero]
      by_cases hzero : total2 - total1 = 0
      · rw [if_pos hzero]
        refine ⟨⟨?_, fun _ => le_refl 0⟩, by norm_num⟩
        rintro - _ _ _ _ ⟨rfl, rfl⟩ ⟨rfl, rfl⟩ hlt
        omega
      · rw [if_neg hzero]
        have hshare := @share_bounds (idle2 - idle1) _ (Nat.pos_of_ne_zero hzero)
        refine ⟨hshare.1.trans ⟨?_, fun h => ?_⟩, hshare.2⟩
        · rintro hle _ _ _ _ ⟨rfl, rfl⟩ ⟨rfl, rfl⟩ -
          exact hle
        · exact h _ _ _ _ ⟨rfl, rfl⟩ ⟨rfl, rfl⟩ (by omega)

end Heartbeat

end Wings
