import Mathlib.Data.Finset.Erase
import Mathlib.Data.Finset.Insert
import Tightrope.Library.Runs
import Tightrope.Server.FirewallFilter

namespace Tightrope.Db

open Bytes Tightrope.Core Runs

inductive FirewallWriteResult where
  | created
  | deleted
  | duplicate
  | notFound
  | invalidIp
  | error
  deriving DecidableEq, Repr

structure FirewallTable where
  records : List FirewallIpRecord := []
  lastId : ℤ := 0

structure FirewallEnv where
  ready : Bool := true
  countRuns : Bool := true
  findRuns : Bool := true
  writeRuns : Bool := true
  stamp : Bytes := []

inductive FirewallCall where
  | add (ipAddress : Bytes)
  | delete (ipAddress : Bytes)
  | allowed (ipAddress : Option Bytes)

inductive FirewallReply where
  | written (result : FirewallWriteResult)
  | allowed (allow : Bool)
  deriving DecidableEq, Repr

namespace FirewallTable

variable (ip : IpText)

def allowlist (table : FirewallTable) (env : FirewallEnv) : FirewallAllowlist where
  ready := env.ready
  countRuns := env.countRuns
  findRuns := env.findRuns
  records := table.records

def names (table : FirewallTable) (normalized : Bytes) : Bool :=
  table.records.any fun record => record.ipAddress = normalized

def inserted (table : FirewallTable) (normalized stamp : Bytes) : FirewallTable where
  records := table.records ++ [⟨table.lastId + 1, normalized, stamp⟩]
  lastId := table.lastId + 1

def addFirewallAllowlistIp (table : FirewallTable) (env : FirewallEnv) (ipAddress : Bytes) :
    FirewallTable × FirewallWriteResult × Option FirewallIpRecord :=
  if !env.ready then (table, .error, none)
  else match normalizeIpAddress ip ipAddress with
    | none => (table, .invalidIp, none)
    | some normalized =>
      if ((table.allowlist env).findByIp normalized).isSome then (table, .duplicate, none)
      else if !env.writeRuns || table.names normalized then (table, .error, none)
      else
        let table := table.inserted normalized env.stamp
        (table, .created, some (((table.allowlist env).findByIp normalized).getD ⟨0, normalized, []⟩))

def deleteFirewallAllowlistIp (table : FirewallTable) (env : FirewallEnv) (ipAddress : Bytes) :
    FirewallTable × FirewallWriteResult :=
  if !env.ready then (table, .error)
  else match normalizeIpAddress ip ipAddress with
    | none => (table, .invalidIp)
    | some normalized =>
      if !env.writeRuns then (table, .error)
      else ({ table with records := table.records.filter fun record => record.ipAddress ≠ normalized },
        if table.names normalized then .deleted else .notFound)

def act (table : FirewallTable) : FirewallEnv × FirewallCall → FirewallTable × FirewallReply
  | (env, .add ipAddress) =>
    ((table.addFirewallAllowlistIp ip env ipAddress).1, .written (table.addFirewallAllowlistIp ip env ipAddress).2.1)
  | (env, .delete ipAddress) =>
    ((table.deleteFirewallAllowlistIp ip env ipAddress).1,
      .written (table.deleteFirewallAllowlistIp ip env ipAddress).2)
  | (env, .allowed ipAddress) => (table, .allowed (isFirewallIpAllowed ip (table.allowlist env) ipAddress))

end FirewallTable

/-- What the allow-list is for: a set of addresses in their normal form, each written at once or not at all. -/
abbrev AllowedAddresses := Finset Bytes

namespace AllowedAddresses

variable (ip : IpText)

def add (addresses : AllowedAddresses) (env : FirewallEnv) (normalized : Bytes) :
    AllowedAddresses × FirewallWriteResult :=
  if normalized ∈ addresses then (addresses, if env.findRuns then .duplicate else .error)
  else if env.writeRuns then (insert normalized addresses, .created)
  else (addresses, .error)

def delete (addresses : AllowedAddresses) (env : FirewallEnv) (normalized : Bytes) :
    AllowedAddresses × FirewallWriteResult :=
  if env.writeRuns then (addresses.erase normalized, if normalized ∈ addresses then .deleted else .notFound)
  else (addresses, .error)

def write (addresses : AllowedAddresses) (env : FirewallEnv) (ipAddress : Bytes)
    (change : Bytes → AllowedAddresses × FirewallWriteResult) : AllowedAddresses × FirewallWriteResult :=
  if env.ready then ((normalizeIpAddress ip ipAddress).map change).getD (addresses, .invalidIp) else (addresses, .error)

def allows (addresses : AllowedAddresses) (env : FirewallEnv) (ipAddress : Option Bytes) : Bool :=
  env.ready && env.countRuns && (addresses = ∅ ||
    (ipAddress.bind (normalizeIpAddress ip)).any fun normalized => env.findRuns && normalized ∈ addresses)

def act (addresses : AllowedAddresses) : FirewallEnv × FirewallCall → AllowedAddresses × FirewallReply
  | (env, .add ipAddress) =>
    ((addresses.write ip env ipAddress (addresses.add env)).1,
      .written (addresses.write ip env ipAddress (addresses.add env)).2)
  | (env, .delete ipAddress) =>
    ((addresses.write ip env ipAddress (addresses.delete env)).1,
      .written (addresses.write ip env ipAddress (addresses.delete env)).2)
  | (env, .allowed ipAddress) => (addresses, .allowed (addresses.allows ip env ipAddress))

end AllowedAddresses

def Names (table : FirewallTable) (addresses : AllowedAddresses) : Prop :=
  ∀ normalized, normalized ∈ addresses ↔ ∃ record ∈ table.records, record.ipAddress = normalized

namespace Names

variable {ip : IpText} {table : FirewallTable} {addresses : AllowedAddresses}

theorem initial : Names {} ∅ := fun normalized => by simp

theorem names_eq (h : Names table addresses) (normalized : Bytes) :
    table.names normalized = decide (normalized ∈ addresses) := by
  rw [Bool.eq_iff_iff, decide_eq_true_iff, h normalized]
  simp [FirewallTable.names]

theorem isSome_findByIp (h : Names table addresses) (env : FirewallEnv) (normalized : Bytes) :
    ((table.allowlist env).findByIp normalized).isSome = (env.findRuns && decide (normalized ∈ addresses)) := by
  rw [← h.names_eq, FirewallAllowlist.findByIp]
  cases hruns : env.findRuns with
  | false => simp [FirewallTable.allowlist, hruns]
  | true => simp [FirewallTable.allowlist, FirewallTable.names, hruns, List.isSome_find?]

theorem inserted (h : Names table addresses) (normalized stamp : Bytes) :
    Names (table.inserted normalized stamp) (insert normalized addresses) := by
  intro other
  rw [Finset.mem_insert, h other]
  simp [FirewallTable.inserted, or_and_right, exists_or, or_comm, eq_comm]

theorem erased (h : Names table addresses) (normalized : Bytes) :
    Names { table with records := table.records.filter fun record => record.ipAddress ≠ normalized }
      (addresses.erase normalized) := by
  intro other
  rw [Finset.mem_erase, h other]
  constructor
  · rintro ⟨hne, record, hrecord, rfl⟩
    exact ⟨record, List.mem_filter.mpr ⟨hrecord, by simpa using hne⟩, rfl⟩
  · rintro ⟨record, hrecord, rfl⟩
    obtain ⟨hmem, hne⟩ := List.mem_filter.mp hrecord
    exact ⟨by simpa using hne, record, hmem, rfl⟩

variable (ip) in
theorem add (h : Names table addresses) (env : FirewallEnv) (ipAddress : Bytes) :
    Names (table.addFirewallAllowlistIp ip env ipAddress).1 (addresses.write ip env ipAddress (addresses.add env)).1 ∧
      (table.addFirewallAllowlistIp ip env ipAddress).2.1 =
        (addresses.write ip env ipAddress (addresses.add env)).2 := by
  unfold FirewallTable.addFirewallAllowlistIp AllowedAddresses.write
  cases env.ready with
  | false => exact ⟨h, rfl⟩
  | true =>
    cases normalizeIpAddress ip ipAddress with
    | none => exact ⟨h, rfl⟩
    | some normalized =>
      simp only [h.isSome_findByIp, h.names_eq, AllowedAddresses.add, Option.map_some, Option.getD_some]
      by_cases hmem : normalized ∈ addresses
      · cases env.findRuns <;> simp [hmem, h]
      · cases env.writeRuns <;> simp [hmem, h, h.inserted normalized env.stamp]

variable (ip) in
theorem delete (h : Names table addresses) (env : FirewallEnv) (ipAddress : Bytes) :
    Names (table.deleteFirewallAllowlistIp ip env ipAddress).1
        (addresses.write ip env ipAddress (addresses.delete env)).1 ∧
      (table.deleteFirewallAllowlistIp ip env ipAddress).2 =
        (addresses.write ip env ipAddress (addresses.delete env)).2 := by
  unfold FirewallTable.deleteFirewallAllowlistIp AllowedAddresses.write
  cases env.ready with
  | false => exact ⟨h, rfl⟩
  | true =>
    cases normalizeIpAddress ip ipAddress with
    | none => exact ⟨h, rfl⟩
    | some normalized =>
      simp only [h.names_eq, AllowedAddresses.delete, Option.map_some, Option.getD_some]
      cases env.writeRuns with
      | false => exact ⟨h, rfl⟩
      | true =>
        refine ⟨h.erased normalized, ?_⟩
        simp

theorem eq_empty_iff (h : Names table addresses) : table.records.length = 0 ↔ addresses = ∅ := by
  rw [List.length_eq_zero_iff, Finset.eq_empty_iff_forall_notMem]
  constructor
  · intro hnil normalized hmem
    obtain ⟨record, hrecord, -⟩ := (h normalized).mp hmem
    rw [hnil] at hrecord
    cases hrecord
  · intro hempty
    rw [List.eq_nil_iff_forall_not_mem]
    exact fun record hrecord => hempty record.ipAddress ((h record.ipAddress).mpr ⟨record, hrecord, rfl⟩)

theorem allowed (h : Names table addresses) (env : FirewallEnv) (ipAddress : Option Bytes) :
    isFirewallIpAllowed ip (table.allowlist env) ipAddress = addresses.allows ip env ipAddress := by
  have hready : (table.allowlist env).ready = env.ready := rfl
  have hcount : (table.allowlist env).countRuns = env.countRuns := rfl
  have hempty : (table.allowlist env).records.length = 0 ↔ addresses = ∅ := h.eq_empty_iff
  unfold isFirewallIpAllowed AllowedAddresses.allows
  rw [hready, hcount]
  simp only [hempty]
  cases env.ready with
  | false => rfl
  | true =>
    cases env.countRuns with
    | false => rfl
    | true =>
      by_cases hnone : addresses = ∅
      · simp [hnone]
      · cases ipAddress.bind (normalizeIpAddress ip) with
        | none => simp [hnone]
        | some normalized => simp [hnone, h.isSome_findByIp]

theorem act (h : Names table addresses) (call : FirewallEnv × FirewallCall) :
    Names (table.act ip call).1 (addresses.act ip call).1 ∧ (table.act ip call).2 = (addresses.act ip call).2 := by
  obtain ⟨env, call⟩ := call
  cases call with
  | add ipAddress =>
    obtain ⟨hnames, hresult⟩ := h.add ip env ipAddress
    exact ⟨hnames, congrArg FirewallReply.written hresult⟩
  | delete ipAddress =>
    obtain ⟨hnames, hresult⟩ := h.delete ip env ipAddress
    exact ⟨hnames, congrArg FirewallReply.written hresult⟩
  | allowed ipAddress => exact ⟨h, congrArg FirewallReply.allowed (h.allowed env ipAddress)⟩

end Names

/-- Whatever is added, deleted and asked, and whichever statements fail, the table answers as the set of addresses. -/
theorem firewall_allowlist_refines_set (ip : IpText) (calls : List (FirewallEnv × FirewallCall)) :
    replies (FirewallTable.act ip) {} calls = replies (AllowedAddresses.act ip) ∅ calls := by
  have hall : AllSteps (pairStep (FirewallTable.act ip) (AllowedAddresses.act ip)) (fun _ _ => True) ({}, ∅) calls :=
    allSteps_of_forall _ fun _ _ => trivial
  apply replies_eq_of_simulation _ _ _ Names.initial hall
  intro table addresses call h _
  exact h.act call

end Tightrope.Db
