import Tightrope.Bridge.ClusterInvariants
import Tightrope.Bridge.RejectedCommands
import Tightrope.Library.Loops

namespace Tightrope.Bridge

open Bytes Tightrope.Core KeyedLoops MachineWords Runs Sync Sync.Discovery

def ActiveCluster.FailuresTold (c : ActiveCluster) : Prop :=
  ∀ siteId n, c.peerProbeFailures.find? siteId = some n → n ≠ 0 →
    ∃ probe ∈ c.probesMade, probe.siteId = siteId ∧ probe.ok = false

def FailuresTold (b : Bridge) : Prop := ∀ c, b.cluster = some c → c.FailuresTold

section Clusters

variable {c c' : ActiveCluster}

theorem ActiveCluster.FailuresTold.of_subset (h : c.FailuresTold) (hprobes : c.probesMade ⊆ c'.probesMade)
    (hcounts : ∀ siteId n, c'.peerProbeFailures.find? siteId = some n → c.peerProbeFailures.find? siteId = some n) :
    c'.FailuresTold := by
  intro siteId n hn hne
  obtain ⟨probe, hmem, hprobe⟩ := h siteId n (hcounts siteId n hn) hne
  exact ⟨probe, hprobes hmem, hprobe⟩

theorem ActiveCluster.FailuresTold.insert (h : c.FailuresTold) {probe : ProbeRecord} {count : UInt64}
    (hprobes : c'.probesMade = c.probesMade ++ [probe])
    (hcounts : c'.peerProbeFailures = c.peerProbeFailures.insert probe.siteId count)
    (hok : probe.ok = true → count = 0) : c'.FailuresTold := by
  intro siteId n hn hne
  rw [hcounts, FlatMap.find?_insert] at hn
  rw [hprobes]
  split_ifs at hn with hsite
  · obtain rfl := Option.some.inj hn
    refine ⟨probe, List.mem_append_right _ (List.mem_singleton_self _), hsite.symm, ?_⟩
    cases hprobe : probe.ok with
    | false => rfl
    | true => exact absurd (hok hprobe) hne
  · obtain ⟨earlier, hmem, hearlier⟩ := h siteId n hn hne
    exact ⟨earlier, List.mem_append_left _ hmem, hearlier⟩

theorem failuresTold_noteProbe (h : c.FailuresTold) (siteId : UInt32) (nowMs : UInt64) (probe : PeerProbeResult) :
    (c.noteProbe siteId nowMs probe).FailuresTold := by
  refine h.insert rfl rfl ?_
  intro hok
  exact if_pos hok

theorem failuresTold_noteAddProbe (h : c.FailuresTold) (siteId : UInt32) (env : AddPeerEnv) :
    (c.noteAddProbe siteId env).FailuresTold := by
  refine h.insert rfl rfl ?_
  intro hok
  exact if_pos hok

theorem failuresTold_forgetProbes (h : c.FailuresTold) (siteId : UInt32) : (c.forgetProbes siteId).FailuresTold := by
  refine h.of_subset (fun _ hmem => hmem) ?_
  intro other n hn
  change (c.peerProbeFailures.erase siteId).find? other = some n at hn
  rw [FlatMap.find?_erase] at hn
  split_ifs at hn
  exact hn

theorem failuresTold_pruneProbes (h : c.FailuresTold) (active : List UInt32) : (c.pruneProbes active).FailuresTold := by
  refine h.of_subset (fun _ hmem => hmem) ?_
  intro siteId n hn
  change (c.peerProbeFailures.filter _).find? siteId = some n at hn
  rw [FlatMap.find?_filter] at hn
  exact (Option.filter_eq_some_iff.mp hn).1

theorem ActiveCluster.FailuresTold.count_eq_zero (h : c.FailuresTold) {p : UInt32}
    (hanswered : ∀ probe ∈ c.probesMade.filter fun probe => probe.siteId = p, probe.ok = true) :
    (c.peerProbeFailures.find? p).getD 0 = 0 := by
  cases hcount : c.peerProbeFailures.find? p with
  | none => rfl
  | some n =>
    by_contra hne
    obtain ⟨probe, hmem, hsite, hfailed⟩ := h p n hcount hne
    have hok := hanswered probe (List.mem_filter.mpr ⟨hmem, decide_eq_true hsite⟩)
    rw [hok] at hfailed
    cases hfailed

theorem failuresTold_invariant : ClusterInvariant ActiveCluster.FailuresTold where
  discovered _ _ _ h := h
  removed _ _ h := h
  joined _ _ _ h := h
  left _ _ h := h
  added _ siteId env h := failuresTold_noteAddProbe h siteId env
  probed _ siteId nowMs probe h := failuresTold_noteProbe h siteId nowMs probe
  forgotten _ siteId h := failuresTold_forgetProbes h siteId
  pruned _ active h := failuresTold_pruneProbes h active
  seen _ _ h := h

theorem failuresTold_add (isAddress : Bytes → Bool) (getenv : Bytes → Option Bytes) (add : AddCall) :
    add.Keeps isAddress getenv ActiveCluster.FailuresTold := fun _ _ _ _ h _ _ => h

end Clusters

section Commands

variable {isAddress : Bytes → Bool} {getenv : Bytes → Option Bytes} {b : Bridge} {c : ActiveCluster}

theorem failuresTold_clusterDisable (b : Bridge) : b.clusterDisable.FailuresTold := by
  intro c hc
  rw [clusterDisable_cluster] at hc
  cases hc

theorem failuresTold_clusterAddPeer (h : b.FailuresTold) (env : AddPeerEnv) (address : Bytes) :
    (b.clusterAddPeer isAddress getenv env address).1.FailuresTold :=
  failuresTold_invariant.clusterAddPeer ⟨b, env, address⟩ h (failuresTold_add isAddress getenv _)

theorem failuresTold_addManualPeers (h : b.FailuresTold) (adds : ℕ → AddPeerEnv) (i : ℕ) (peers : List Bytes) :
    (b.addManualPeers isAddress getenv adds i peers).1.FailuresTold := by
  induction peers generalizing b i with
  | nil => exact h
  | cons peer peers ih =>
    rw [addManualPeers]
    split
    · exact ih (failuresTold_clusterAddPeer h (adds i) peer) (i + 1)
    · exact failuresTold_clusterDisable _

theorem failuresTold_clusterEnable (h : b.FailuresTold) (env : EnableEnv) (config : ClusterConfig) :
    (b.clusterEnable isAddress getenv env config).1.FailuresTold := by
  unfold clusterEnable
  simp only
  split
  · exact h
  · split
    · exact h
    · split
      · split
        · exact failuresTold_clusterDisable _
        · exact h
      · apply failuresTold_addManualPeers
        apply Throughout.withCluster
        intro siteId n hn
        cases hn

theorem failuresTold_execute (h : b.FailuresTold) (command : ClusterCommand) :
    (b.execute isAddress getenv command).1.FailuresTold := by
  cases command with
  | enable env config => exact failuresTold_clusterEnable h env config
  | addPeer env address => exact failuresTold_clusterAddPeer h env address
  | removePeer replies siteId => exact failuresTold_invariant.clusterRemovePeer h replies siteId

end Commands

structure SitePass where
  lastProbe : Option UInt64
  failures : Option UInt64
  probes : List ProbeRecord
  candidate : Bool
  deriving DecidableEq

def RefreshPass.site (p : UInt32) (pass : RefreshPass) : SitePass where
  lastProbe := pass.cluster.lastPeerProbeUnixMs.find? p
  failures := pass.cluster.peerProbeFailures.find? p
  probes := pass.cluster.probesMade.filter fun probe => probe.siteId = p
  candidate := p ∈ pass.evictionCandidates

namespace RefreshContext

variable (ctx : RefreshContext)

def duePeers (c : ActiveCluster) (peers : List PeerRecord) : List PeerRecord :=
  peers.filter fun peer => peer.siteId ≠ ctx.localSiteId && ctx.probeDue c peer.siteId

structure ProbesNow (c : ActiveCluster) (peers : List PeerRecord) (p : UInt32) : Prop where
  enabled : ctx.probePolicy.enabled = true
  due : ctx.probeDue c p = true
  within : (ctx.duePeers c (peers.takeWhile fun peer => peer.siteId ≠ p)).length <
    ctx.probePolicy.maxProbesPerRefresh.toNat

theorem site_refreshPeer : StepsAreLocal ctx.refreshPeer PeerRecord.siteId RefreshPass.site := by
  intro pass peer p hne
  unfold refreshPeer
  split
  · rfl
  · rw [RefreshPass.site, RefreshPass.site, SitePass.mk.injEq]
    simp only
    have hcandidate : (p ∈ pass.evictionCandidates ++ [peer.siteId]) ↔ p ∈ pass.evictionCandidates := by
      simp [Ne.symm hne]
    refine ⟨?_, ?_, ?_, ?_⟩
    · split
      · rw [ActiveCluster.noteProbe, FlatMap.find?_insert, if_neg (Ne.symm hne)]
      · rfl
    · split
      · rw [ActiveCluster.noteProbe, FlatMap.find?_insert, if_neg (Ne.symm hne)]
      · rfl
    · split
      · simp [ActiveCluster.noteProbe, hne]
      · rfl
    · apply decide_eq_decide.mpr
      split_ifs
      · exact hcandidate
      · rfl
      · exact hcandidate
      · rfl

section Pass

variable {ctx} {pass : RefreshPass} {peer : PeerRecord}

theorem refreshPeer_of_local (h : peer.siteId = ctx.localSiteId) : ctx.refreshPeer pass peer = pass := if_pos h

theorem probesAttempted_foldl (henabled : ctx.probePolicy.enabled = true) (c : ActiveCluster) {peers : List PeerRecord}
    (hnodup : (peers.map PeerRecord.siteId).Nodup)
    (hdue : ∀ peer ∈ peers, ctx.probeDue pass.cluster peer.siteId = ctx.probeDue c peer.siteId)
    (hlimit : pass.probesAttempted ≤ ctx.probePolicy.maxProbesPerRefresh.toNat) :
    (peers.foldl ctx.refreshPeer pass).probesAttempted =
      min ctx.probePolicy.maxProbesPerRefresh.toNat (pass.probesAttempted + (ctx.duePeers c peers).length) := by
  induction peers generalizing pass with
  | nil => simp [duePeers, hlimit]
  | cons peer peers ih =>
    obtain ⟨hfresh, hrest⟩ := List.nodup_cons.mp hnodup
    have hstill : ∀ other ∈ peers,
        ctx.probeDue (ctx.refreshPeer pass peer).cluster other.siteId = ctx.probeDue c other.siteId := by
      intro other hother
      rw [← hdue other (List.mem_cons_of_mem _ hother)]
      have hne : peer.siteId ≠ other.siteId := fun heq => hfresh (heq ▸ List.mem_map_of_mem hother)
      have hsite : (ctx.refreshPeer pass peer).site other.siteId = pass.site other.siteId :=
        site_refreshPeer ctx pass peer other.siteId hne
      exact congrArg (fun last => elapsed last ctx.call.nowMs ctx.probePolicy.intervalMs)
        (congrArg SitePass.lastProbe hsite)
    have hhead := hdue peer List.mem_cons_self
    by_cases hlocal : peer.siteId = ctx.localSiteId
    · rw [List.foldl_cons, refreshPeer_of_local hlocal,
        ih hrest (fun other hother => hdue other (List.mem_cons_of_mem _ hother)) hlimit]
      simp [duePeers, hlocal]
    · have hattempted : (ctx.refreshPeer pass peer).probesAttempted =
          if ctx.shouldProbe pass peer.siteId = true then pass.probesAttempted + 1 else pass.probesAttempted := by
        rw [refreshPeer, if_neg hlocal]
      have hprobes : ctx.shouldProbe pass peer.siteId = true ↔
          pass.probesAttempted < ctx.probePolicy.maxProbesPerRefresh.toNat ∧ ctx.probeDue c peer.siteId = true := by
        simp [shouldProbe, henabled, hhead]
      have hstep : (ctx.refreshPeer pass peer).probesAttempted ≤ ctx.probePolicy.maxProbesPerRefresh.toNat := by
        rw [hattempted]
        split_ifs with h
        · exact (hprobes.mp h).1
        · exact hlimit
      rw [List.foldl_cons, ih hrest hstill hstep, hattempted]
      by_cases hpeer : ctx.probeDue c peer.siteId = true
      · have hdrop : (ctx.duePeers c (peer :: peers)).length = (ctx.duePeers c peers).length + 1 := by
          simp [duePeers, hlocal, hpeer]
        rw [hdrop]
        split_ifs with h
        · omega
        · have hfull : ¬ pass.probesAttempted < ctx.probePolicy.maxProbesPerRefresh.toNat :=
            fun hlt => h (hprobes.mpr ⟨hlt, hpeer⟩)
          omega
      · have hkeep : ctx.duePeers c (peer :: peers) = ctx.duePeers c peers := by simp [duePeers, hpeer]
        rw [hkeep, if_neg fun h => hpeer (hprobes.mp h).2]

end Pass

structure Admitted : Prop where
  evicts : 1 ≤ ctx.policy.evictAfterFailures
  unreachable : ctx.policy.unreachableAfterFailures ≤ ctx.policy.evictAfterFailures
  failClosed : 1 ≤ ctx.probePolicy.failClosedFailures

def Silent (p : UInt32) : Prop :=
  ∃ seen, ctx.ingressSeen p = some seen ∧
    ctx.policy.evictAfterFailures ≤ heartbeatFailuresSince ctx.call.nowMs seen ctx.policy.heartbeatIntervalMs

section Decision

variable {ctx} {c : ActiveCluster} {peer : PeerRecord} {heard : Bool}

theorem evict_le_missed_iff (hadmitted : ctx.Admitted) :
    ctx.policy.evictAfterFailures ≤
      ((if heard then some ctx.call.nowMs else ctx.ingressSeen peer.siteId).elim 0 fun last =>
      heartbeatFailuresSince ctx.call.nowMs last (ctx.livenessIntervalMs peer.siteId)) ↔
      heard = false ∧ ctx.Silent peer.siteId := by
  have hpositive : ¬ ctx.policy.evictAfterFailures ≤ 0 := by
    intro hle
    exact absurd (hadmitted.evicts.trans hle) (by decide)
  cases heard with
  | true =>
    have hnow : heartbeatFailuresSince ctx.call.nowMs ctx.call.nowMs (ctx.livenessIntervalMs peer.siteId) = 0 :=
      if_pos (.inr le_rfl)
    simp [hnow, hpositive]
  | false =>
    cases hseen : ctx.ingressSeen peer.siteId with
    | none => simp [Silent, hseen, hpositive]
    | some seen => simp [Silent, hseen, livenessIntervalMs]

theorem shouldEvict_iff (hadmitted : ctx.Admitted) (hcounted : (c.peerProbeFailures.find? peer.siteId).getD 0 = 0)
    (hrejected : ∀ t, ctx.telemetry peer.siteId = some t → t.consecutiveFailures < ctx.policy.evictAfterFailures) :
    ctx.shouldEvict (ctx.statusOf c peer heard) = true ↔
      ctx.call.role = .leader ∧ ctx.call.leaderId ≠ some peer.siteId ∧
        shouldAttemptDeadPeerEviction ctx.attempts peer.siteId ctx.call.nowMs ctx.policy.evictionCooldownMs = true ∧
        heard = false ∧ ctx.Silent peer.siteId := by
  have hopen : ctx.failClosedReached 0 = false := by
    have hnot : ¬ ctx.probePolicy.failClosedFailures ≤ 0 := by
      intro hle
      exact absurd (hadmitted.failClosed.trans hle) (by decide)
    simp [failClosedReached, hnot]
  have hingress : ¬ ctx.policy.evictAfterFailures ≤
      (ctx.telemetry peer.siteId).elim 0 PeerIngressTelemetry.consecutiveFailures := by
    cases htelemetry : ctx.telemetry peer.siteId with
    | none => exact fun hle => absurd (hadmitted.evicts.trans hle) (by decide)
    | some t => exact not_le.mpr (hrejected t htelemetry)
  have hfailures : ctx.policy.evictAfterFailures ≤ (ctx.statusOf c peer heard).consecutiveHeartbeatFailures ↔
      heard = false ∧ ctx.Silent peer.siteId := by
    rw [← evict_le_missed_iff hadmitted]
    simp only [statusOf, hcounted, le_max_iff, hingress, false_or]
    constructor
    · rintro (hmissed | hzero)
      · exact hmissed
      · exact absurd (hadmitted.evicts.trans hzero) (by decide)
    · exact .inl
  have hrole : (ctx.statusOf c peer heard).role ≠ .leader ↔ ctx.call.leaderId ≠ some peer.siteId := by
    simp only [statusOf, roleOf]
    split_ifs with h <;> simp [h]
  have hunreachable : ctx.policy.evictAfterFailures ≤ (ctx.statusOf c peer heard).consecutiveHeartbeatFailures →
      (ctx.statusOf c peer heard).state = .unreachable := by
    intro hle
    have hstate := hadmitted.unreachable.trans hle
    simp only [statusOf, hcounted] at hstate ⊢
    rw [stateOf, hopen, if_neg Bool.false_ne_true, if_pos hstate]
  have hprobe : (ctx.statusOf c peer heard).consecutiveProbeFailures = 0 := hcounted
  have hsite : (ctx.statusOf c peer heard).siteId = peer.siteId := rfl
  simp only [shouldEvict, hprobe, hopen, hsite, Bool.or_false, Bool.and_eq_true, decide_eq_true_eq]
  constructor
  · rintro ⟨⟨⟨hleads, hfollows⟩, -, hle⟩, hcooled⟩
    exact ⟨hleads, hrole.mp hfollows, hcooled, hfailures.mp hle⟩
  · rintro ⟨hleads, hfollows, hcooled, hmissed⟩
    have hle := hfailures.mpr hmissed
    exact ⟨⟨⟨hleads, hrole.mpr hfollows⟩, hunreachable hle, hle⟩, hcooled⟩

end Decision

/-- The leader may evict the peer, does not probe it in this refresh, and has not heard it for too many heartbeats. -/
structure Overlooked (c : ActiveCluster) (peers : List PeerRecord) (p : UInt32) : Prop where
  listed : p ∈ peers.map PeerRecord.siteId
  remote : p ≠ ctx.localSiteId
  leads : ctx.call.role = .leader
  follows : ctx.call.leaderId ≠ some p
  cooled : shouldAttemptDeadPeerEviction ctx.attempts p ctx.call.nowMs ctx.policy.evictionCooldownMs = true
  unprobed : ¬ ctx.ProbesNow c peers p
  silent : ctx.Silent p

section Candidates

variable {ctx} {c : ActiveCluster} {peers before after : List PeerRecord} {peer : PeerRecord}

theorem takeWhile_split (hfresh : peer.siteId ∉ before.map PeerRecord.siteId) :
    (before ++ peer :: after).takeWhile (fun other => other.siteId ≠ peer.siteId) = before := by
  rw [List.takeWhile_append_of_pos, List.takeWhile_cons_of_neg (by simp), List.append_nil]
  intro other hother
  rw [decide_eq_true_eq]
  intro heq
  exact hfresh (heq ▸ List.mem_map_of_mem hother)

theorem shouldProbe_iff (hnodup : (peers.map PeerRecord.siteId).Nodup) (hsplit : peers = before ++ peer :: after) :
    ctx.shouldProbe (before.foldl ctx.refreshPeer { cluster := c }) peer.siteId = true ↔
      ctx.ProbesNow c peers peer.siteId := by
  have hsite := (view_foldl_of_mem (site_refreshPeer ctx) hnodup hsplit { cluster := c }).2
  have hdue : ctx.probeDue (before.foldl ctx.refreshPeer { cluster := c }).cluster peer.siteId =
      ctx.probeDue c peer.siteId :=
    congrArg (fun site => elapsed (SitePass.lastProbe site) ctx.call.nowMs ctx.probePolicy.intervalMs) hsite
  subst hsplit
  rw [List.map_append, List.map_cons, List.nodup_append] at hnodup
  obtain ⟨hbefore, -, hdisjoint⟩ := hnodup
  have hfresh : peer.siteId ∉ before.map PeerRecord.siteId := fun hmem => hdisjoint _ hmem _ List.mem_cons_self rfl
  have hcount (henabled : ctx.probePolicy.enabled = true) :
      (before.foldl ctx.refreshPeer { cluster := c }).probesAttempted =
        min ctx.probePolicy.maxProbesPerRefresh.toNat (0 + (ctx.duePeers c before).length) :=
    probesAttempted_foldl henabled c hbefore (fun _ _ => rfl) (Nat.zero_le _)
  rw [shouldProbe, hdue, Bool.and_eq_true, Bool.and_eq_true, decide_eq_true_eq]
  constructor
  · rintro ⟨⟨henabled, hlimit⟩, hpeer⟩
    rw [hcount henabled] at hlimit
    refine ⟨henabled, hpeer, ?_⟩
    rw [takeWhile_split hfresh]
    omega
  · rintro ⟨henabled, hpeer, hwithin⟩
    rw [takeWhile_split hfresh] at hwithin
    rw [hcount henabled]
    exact ⟨⟨henabled, by omega⟩, hpeer⟩

theorem mem_evictionCandidates_iff (hadmitted : ctx.Admitted) (htold : c.FailuresTold)
    (hnodup : (peers.map PeerRecord.siteId).Nodup) {p : UInt32}
    (hanswered : ∀ probe ∈ ((peers.foldl ctx.refreshPeer { cluster := c }).site p).probes, probe.ok = true)
    (hrejected : ∀ t, ctx.telemetry p = some t → t.consecutiveFailures < ctx.policy.evictAfterFailures) :
    p ∈ (peers.foldl ctx.refreshPeer { cluster := c }).evictionCandidates ↔ ctx.Overlooked c peers p := by
  have hcandidate (pass : RefreshPass) : p ∈ pass.evictionCandidates ↔ (pass.site p).candidate = true := by
    simp [RefreshPass.site]
  rw [hcandidate]
  by_cases hlisted : p ∈ peers.map PeerRecord.siteId
  · obtain ⟨peer, hpeer, rfl⟩ := List.mem_map.mp hlisted
    obtain ⟨before, after, hsplit⟩ := List.append_of_mem hpeer
    obtain ⟨hstep, hstart⟩ := view_foldl_of_mem (site_refreshPeer ctx) hnodup hsplit { cluster := c }
    rw [hstep] at hanswered ⊢
    have hprobes : ctx.shouldProbe (before.foldl ctx.refreshPeer { cluster := c }) peer.siteId = true ↔
        ctx.ProbesNow c peers peer.siteId := shouldProbe_iff hnodup hsplit
    have htold : (before.foldl ctx.refreshPeer { cluster := c }).cluster.FailuresTold :=
      failuresTold_invariant.foldl_refreshPeer ctx htold before
    generalize before.foldl ctx.refreshPeer { cluster := c } = pass at hstart hprobes htold hanswered ⊢
    have hnew : peer.siteId ∉ pass.evictionCandidates := by
      rw [hcandidate, hstart]
      simp [RefreshPass.site]
    by_cases hlocal : peer.siteId = ctx.localSiteId
    · rw [refreshPeer_of_local hlocal, ← hcandidate]
      exact iff_of_false hnew fun h => h.remote hlocal
    · rw [refreshPeer, if_neg hlocal] at hanswered ⊢
      rw [← hcandidate]
      simp only at hanswered ⊢
      cases hprobe : ctx.shouldProbe pass peer.siteId with
      | true =>
        have hmade : (ctx.call.probe peer.siteId peer.endpoint).ok = true := by
          simp only [hprobe, if_pos] at hanswered
          apply hanswered ⟨peer.siteId, ctx.call.nowMs, _⟩
          simp [RefreshPass.site, ActiveCluster.noteProbe]
        have hnone : ctx.shouldEvict (ctx.statusOf (pass.cluster.noteProbe peer.siteId ctx.call.nowMs
            (ctx.call.probe peer.siteId peer.endpoint)) peer true) = false := by
          rw [← Bool.not_eq_true, shouldEvict_iff hadmitted _ hrejected]
          · rintro ⟨-, -, -, hheard, -⟩
            cases hheard
          · simp [ActiveCluster.noteProbe, hmade]
        rw [hmade, if_pos rfl, Bool.and_true, if_neg (by simp [hnone])]
        exact iff_of_false hnew fun h => h.unprobed (hprobes.mp hprobe)
      | false =>
        have hunprobed : ¬ ctx.ProbesNow c peers peer.siteId := fun h => by
          rw [hprobes.mpr h] at hprobe
          cases hprobe
        simp only [hprobe, Bool.false_eq_true, if_false] at hanswered
        have hdecision : ctx.shouldEvict (ctx.statusOf pass.cluster peer false) = true ↔ _ :=
          shouldEvict_iff hadmitted (htold.count_eq_zero hanswered) hrejected
        rw [if_neg Bool.false_ne_true, Bool.false_and]
        constructor
        · intro hmem
          split_ifs at hmem with hevict
          · obtain ⟨hleads, hfollows, hcooled, -, hsilent⟩ := hdecision.mp hevict
            exact ⟨hlisted, hlocal, hleads, hfollows, hcooled, hunprobed, hsilent⟩
          · exact absurd hmem hnew
        · rintro ⟨-, -, hleads, hfollows, hcooled, -, hsilent⟩
          rw [if_pos (hdecision.mpr ⟨hleads, hfollows, hcooled, rfl, hsilent⟩)]
          exact List.mem_append_right _ (List.mem_singleton_self _)
  · rw [view_foldl (site_refreshPeer ctx) hlisted, ← hcandidate]
    exact iff_of_false List.not_mem_nil fun h => hlisted h.listed

end Candidates

end RefreshContext

section Refresh

variable {isAddress : Bytes → Bool} {getenv : Bytes → Option Bytes} {b : Bridge} {c : ActiveCluster}
  {call : RefreshCall}

theorem siteId_of_raftOnlyPeer {server : UInt32 × Bytes} {peer : PeerRecord}
    (h : c.raftOnlyPeer isAddress server = some peer) : peer.siteId = server.1 ∧ server.1 ≠ 0 ∧
      server.1 ∉ c.knownSiteIds := by
  unfold ActiveCluster.raftOnlyPeer at h
  split at h
  · cases h
  · rename_i hserver
    obtain ⟨endpoint, -, rfl⟩ := Option.map_eq_some_iff.mp h
    rw [not_or, not_or] at hserver
    exact ⟨rfl, hserver.1, hserver.2.2⟩

theorem nodup_peersToRefresh (c : ActiveCluster) : ((c.peersToRefresh isAddress).map PeerRecord.siteId).Nodup := by
  have hraft : ((c.raftNode.members.entries.filterMap (c.raftOnlyPeer isAddress)).map PeerRecord.siteId).Nodup := by
    apply List.pairwise_map.mpr
    apply c.raftNode.members.sorted.filterMap
    intro server other hlt peer hpeer record hrecord heq
    rw [(siteId_of_raftOnlyPeer hpeer).1, (siteId_of_raftOnlyPeer hrecord).1] at heq
    exact absurd heq (ne_of_lt hlt)
  unfold ActiveCluster.peersToRefresh
  split
  · rw [List.map_append, List.nodup_append]
    refine ⟨nodup_membershipProposals, hraft, ?_⟩
    rintro siteId hproposed other hother rfl
    obtain ⟨peer, hpeer, rfl⟩ := List.mem_map.mp hother
    obtain ⟨server, -, hserver⟩ := List.mem_filterMap.mp hpeer
    obtain ⟨hsite, hne, hunknown⟩ := siteId_of_raftOnlyPeer hserver
    apply hunknown
    rw [← hsite] at hne ⊢
    exact List.mem_filter.mpr ⟨hproposed, decide_eq_true hne⟩
  · rw [List.append_nil]
    exact nodup_membershipProposals

theorem admitted_refreshContext (inflight : InflightState) (telemetry : TelemetryMap) :
    (refreshContext getenv b c inflight telemetry call).Admitted where
  evicts := (one_le_disconnect getenv).trans ((disconnect_le_unreachable getenv).trans (unreachable_le_evict getenv))
  unreachable := unreachable_le_evict getenv
  failClosed := one_le_failClosedFailures getenv c.config

end Refresh

structure Node where
  bridge : Bridge := {}
  inflight : InflightState := {}
  telemetry : TelemetryMap := .empty

inductive NodeStep where
  | command (command : ClusterCommand)
  | disable
  | ingress (nowMs : UInt64) (outcome : IngressOutcome) (inflight : InflightState)
  | refresh (call : RefreshCall)

namespace Node

section Definitions

variable (isAddress : Bytes → Bool) (getenv : Bytes → Option Bytes) (s : Node)

def refreshed (call : RefreshCall) : Refreshed :=
  refreshClusterPeers isAddress getenv s.bridge s.inflight s.telemetry call

def step : NodeStep → Node
  | .command command => { s with bridge := (s.bridge.execute isAddress getenv command).1 }
  | .disable => { s with bridge := s.bridge.clusterDisable }
  | .ingress nowMs outcome inflight =>
    { s with inflight, telemetry := recordPeerIngressResult nowMs s.telemetry outcome }
  | .refresh call => { s with bridge := (s.refreshed isAddress getenv call).bridge }

def probesSoFar (c : ActiveCluster) (call : RefreshCall) (p : UInt32) : List ProbeRecord :=
  (refreshPass isAddress getenv s.bridge c s.inflight s.telemetry call).cluster.probesMade.filter
    fun probe => probe.siteId = p

/-- The peer answered every probe, the last of them not long ago, and its batches are not refused all the time. -/
structure LivePeer (c : ActiveCluster) (call : RefreshCall) (p : UInt32) : Prop where
  answered : ∀ probe ∈ s.probesSoFar isAddress getenv c call p, probe.ok = true
  recent : ∃ probe, (s.probesSoFar isAddress getenv c call p).getLast? = some probe ∧
    call.nowMs.toNat ≤ probe.unixMs.toNat +
      (max (readReplicationPeerPolicy getenv).heartbeatIntervalMs
        (readPeerProbePolicy getenv c.config).intervalMs).toNat *
        ((readReplicationPeerPolicy getenv).evictAfterFailures.toNat - 1)
  accepted : ∀ t, peerIngressTelemetry s.inflight s.telemetry p = some t →
    t.consecutiveFailures < (readReplicationPeerPolicy getenv).evictAfterFailures

structure Spared (call : RefreshCall) (p : UInt32) : Prop where
  candidates : p ∉ (s.refreshed isAddress getenv call).evictionCandidates
  removals : p ∉ (s.refreshed isAddress getenv call).removals

def Overlooked (c : ActiveCluster) (call : RefreshCall) (p : UInt32) : Prop :=
  (refreshContext getenv s.bridge c s.inflight s.telemetry call).Overlooked (c.afterDiscovery isAddress call)
    ((c.afterDiscovery isAddress call).peersToRefresh isAddress) p

end Definitions

variable {isAddress : Bytes → Bool} {getenv : Bytes → Option Bytes} {s : Node}

theorem failuresTold_step (h : s.bridge.FailuresTold) (a : NodeStep) :
    (s.step isAddress getenv a).bridge.FailuresTold := by
  cases a with
  | command command => exact failuresTold_execute h command
  | disable => exact failuresTold_clusterDisable _
  | ingress nowMs outcome inflight => exact h
  | refresh call =>
    exact failuresTold_invariant.refreshClusterPeers h _ _ call fun add _ => failuresTold_add isAddress getenv add

theorem mem_of_mem_evictionRemovals {call : RefreshCall} {b : Bridge} {candidates : List UInt32} {p : UInt32}
    (h : p ∈ evictionRemovals call b candidates) : p ∈ candidates := by
  unfold evictionRemovals at h
  split at h
  · exact h
  · cases h

theorem mem_of_mem_removals {call : RefreshCall} {p : UInt32} (h : p ∈ (s.refreshed isAddress getenv call).removals) :
    p ∈ (s.refreshed isAddress getenv call).evictionCandidates := by
  unfold refreshed refreshClusterPeers at h ⊢
  cases hcluster : s.bridge.cluster with
  | none =>
    rw [hcluster] at h
    cases h
  | some c =>
    rw [hcluster] at h
    exact mem_of_mem_evictionRemovals h

theorem evictionCandidates_refreshed {c : ActiveCluster} (hcluster : s.bridge.cluster = some c) (call : RefreshCall) :
    (s.refreshed isAddress getenv call).evictionCandidates =
      (refreshPass isAddress getenv s.bridge c s.inflight s.telemetry call).evictionCandidates := by
  unfold refreshed refreshClusterPeers
  rw [hcluster]

theorem spared_iff {c : ActiveCluster} (hcluster : s.bridge.cluster = some c) (htold : s.bridge.FailuresTold)
    {call : RefreshCall} {p : UInt32} (hlive : s.LivePeer isAddress getenv c call p) :
    s.Spared isAddress getenv call p ↔ ¬ s.Overlooked isAddress getenv c call p := by
  have hcandidate : p ∈ (refreshPass isAddress getenv s.bridge c s.inflight s.telemetry call).evictionCandidates ↔
      s.Overlooked isAddress getenv c call p :=
    RefreshContext.mem_evictionCandidates_iff (admitted_refreshContext s.inflight s.telemetry)
      (failuresTold_invariant.afterDiscovery (htold c hcluster) call) (nodup_peersToRefresh _) hlive.answered
        hlive.accepted
  rw [← evictionCandidates_refreshed hcluster] at hcandidate
  rw [← hcandidate]
  exact ⟨Spared.candidates, fun hnot => ⟨hnot, fun hmem => hnot (mem_of_mem_removals hmem)⟩⟩

/-- In every run of a node a peer that answers its probes is spared by a refresh exactly when the refresh does not
overlook it. -/
theorem live_peer_spared_iff (hstart : s.bridge.cluster = none) (steps : List NodeStep) :
    AllSteps (step isAddress getenv) (fun s a => ∀ call c p, a = .refresh call → s.bridge.cluster = some c →
      s.LivePeer isAddress getenv c call p →
        (s.Spared isAddress getenv call p ↔ ¬ s.Overlooked isAddress getenv c call p)) s steps := by
  have htold : s.bridge.FailuresTold := by
    intro c hc
    rw [hstart] at hc
    cases hc
  have hall : AllStates (step isAddress getenv) (fun s => s.bridge.FailuresTold) s steps := by
    apply allStates_of_step _ (P := fun _ _ => True)
    · exact fun s a h _ => failuresTold_step h a
    · exact htold
    · exact allSteps_of_forall _ fun _ _ => trivial
  apply hall.allSteps
  intro s a h call c p _ hcluster hlive
  exact spared_iff hcluster h hlive

section Samples

def pairConfig : ClusterConfig where
  clusterName := ofString "c"
  syncPort := 9000
  clusterSharedSecret := ofString "s"

def answering : PeerProbeResult := { ok := true, remoteSiteId := some 7 }

def refreshAt (nowMs : UInt64) : RefreshCall where
  nowMs := nowMs
  leaderId := some 1
  probe := fun _ _ => answering

def quietPeer : List NodeStep :=
  [.command (.enable {} pairConfig), .command (.addPeer { probe := answering, nowMs := 1000 } (ofString "node:9000")),
    .ingress 1000 { peerSiteId := 7, lastRecvSeqFromPeer := 1, lastAppliedUpToSeq := 1, success := true,
                    wireBytes := 64 } {}]

def sampleStep : Node → NodeStep → Node := step (fun _ => false) fun _ => none

def quietNode : Node := run sampleStep {} quietPeer

def probedNode : Node := run sampleStep {} (quietPeer ++ [.refresh (refreshAt 101000)])

theorem quietNode_enabled : quietNode.bridge.cluster.isSome = true := by decide +kernel

theorem probedNode_enabled : probedNode.bridge.cluster.isSome = true := by decide +kernel

theorem livePeer_sample {s : Node} {c : ActiveCluster} {nowMs : UInt64}
    (hprobes : (s.probesSoFar (fun _ => false) (fun _ => none) c (refreshAt nowMs) 7).all ProbeRecord.ok = true)
    (hlatest : (s.probesSoFar (fun _ => false) (fun _ => none) c (refreshAt nowMs) 7).getLast? = some ⟨7, 101000, true⟩)
    (hrecent : nowMs.toNat ≤ 101000 + (max (readReplicationPeerPolicy fun _ => none).heartbeatIntervalMs
      (readPeerProbePolicy (fun _ => none) c.config).intervalMs).toNat *
        ((readReplicationPeerPolicy fun _ => none).evictAfterFailures.toNat - 1))
    (haccepted : ((peerIngressTelemetry s.inflight s.telemetry 7).all fun t =>
      t.consecutiveFailures < (readReplicationPeerPolicy fun _ => none).evictAfterFailures) = true) :
    s.LivePeer (fun _ => false) (fun _ => none) c (refreshAt nowMs) 7 := by
  refine ⟨List.all_eq_true.mp hprobes, ⟨_, hlatest, hrecent⟩, ?_⟩
  intro t ht
  rw [ht] at haccepted
  exact of_decide_eq_true haccepted

theorem probed_peer_is_spared : quietNode.Spared (fun _ => false) (fun _ => none) (refreshAt 101000) 7 := by
  have hrun : AllSteps (step (fun _ => false) fun _ => none) _ ({} : Node)
      (quietPeer ++ [.refresh (refreshAt 101000)]) :=
    live_peer_spared_iff rfl _
  have hcluster := (Option.some_get quietNode_enabled).symm
  have hlive : quietNode.LivePeer (fun _ => false) (fun _ => none) (quietNode.bridge.cluster.get quietNode_enabled)
      (refreshAt 101000) 7 :=
    livePeer_sample (by decide +kernel) (by decide +kernel) (by decide +kernel) (by decide +kernel)
  refine (hrun.2.2.2.1 (refreshAt 101000) _ 7 rfl hcluster hlive).mpr fun h => ?_
  exact h.unprobed ⟨by decide +kernel, by decide +kernel, by decide +kernel⟩

theorem healthy_peer_is_evicted : ∃ c, probedNode.bridge.cluster = some c ∧
    probedNode.LivePeer (fun _ => false) (fun _ => none) c (refreshAt 102000) 7 ∧
    ¬ probedNode.Spared (fun _ => false) (fun _ => none) (refreshAt 102000) 7 := by
  refine ⟨probedNode.bridge.cluster.get probedNode_enabled, (Option.some_get _).symm, ?_, ?_⟩
  · exact livePeer_sample (by decide +kernel) (by decide +kernel) (by decide +kernel) (by decide +kernel)
  · intro h
    exact h.candidates (by decide +kernel)

end Samples

end Node

end Tightrope.Bridge
