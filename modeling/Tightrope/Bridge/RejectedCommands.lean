import Tightrope.Bridge.ClusterCommands

namespace Tightrope.Bridge

open Bytes Tightrope.Core Sync Sync.Discovery

inductive ClusterCommand where
  | enable (env : EnableEnv) (config : ClusterConfig)
  | addPeer (env : AddPeerEnv) (address : Bytes)
  | removePeer (replies : ℕ → RaftReply) (siteId : Bytes)

def peer? (b : Bridge) (siteId : UInt32) : Option PeerEndpoint :=
  b.cluster.bind fun c => c.peerManager.endpoint? siteId

def member? (b : Bridge) (siteId : UInt32) : Option Bytes := b.cluster.bind fun c => c.raftNode.members.find? siteId

/-- The peers with their endpoints, the raft membership and the two settings are the same. -/
structure Unchanged (b b' : Bridge) : Prop where
  peers : ∀ siteId, b'.peer? siteId = b.peer? siteId
  members : ∀ siteId, b'.member? siteId = b.member? siteId
  mode : b'.runtimeConflictResolution = b.runtimeConflictResolution
  retention : b'.autoCompactRetentionOverrideMs = b.autoCompactRetentionOverrideMs

section Conditions

variable (isAddress : Bytes → Bool) (getenv : Bytes → Option Bytes) (b : Bridge)

def execute : ClusterCommand → Bridge × Bool
  | .enable env config => b.clusterEnable isAddress getenv env config
  | .addPeer env address => b.clusterAddPeer isAddress getenv env address
  | .removePeer replies siteId => b.clusterRemovePeer replies siteId

structure SettingsKept (config : ClusterConfig) : Prop where
  mode : parseRuntimeConflictResolution config.conflictResolution = b.runtimeConflictResolution
  retention : some (config.journalRetentionDays.toUInt64 * kMsPerDay) = b.autoCompactRetentionOverrideMs

def Bare : Prop := ∀ siteId, b.peer? siteId = none ∧ b.member? siteId = none

def WithdrawalHidden (m : PeerManager) (siteId : UInt32) : Prop :=
  ∀ peer, m.manualPeers.find? siteId = some peer →
    (m.discoveredPeers.find? siteId).map SeenPeer.endpoint = some peer.endpoint

/-- The rejection of the command cannot come after a write that shows. -/
def Undisturbed : ClusterCommand → Prop
  | .enable env config =>
    b.enableError env config = none → b.SettingsKept (resolvedConfig getenv config) ∧
      ((validateReplicationSecurity env.tlsError (resolvedConfig getenv config)).isSome ∨ b.Bare)
  | .addPeer env address =>
    ∀ c siteId endpoint, b.cluster = some c → c.admitPeer isAddress getenv env address = .ok (siteId, endpoint) →
      siteId ≠ 0 → WithdrawalHidden c.peerManager siteId
  | .removePeer replies siteId =>
    ∀ c parsed, b.cluster = some c → parsePositiveU32 siteId = some parsed →
      (c.peerManager.endpoint? parsed).isSome → c.raftNode.running = true →
      c.peerManager.manualPeers.find? parsed = none → membershipChange replies = .ok () →
      c.raftNode.members.find? parsed = none

end Conditions

section Commands

variable {isAddress : Bytes → Bool} {getenv : Bytes → Option Bytes} {b : Bridge} {c : ActiveCluster}

theorem unchanged_fail (b : Bridge) (error : Bytes) : Unchanged b (b.fail error).1 :=
  ⟨fun _ => rfl, fun _ => rfl, rfl, rfl⟩

section AddPeer

variable {env : AddPeerEnv} {address : Bytes} {siteId : UInt32} {endpoint : PeerEndpoint}

theorem isValid_of_admitPeer (h : c.admitPeer isAddress getenv env address = .ok (siteId, endpoint)) :
    isValidHostPort isAddress endpoint = true := by
  unfold ActiveCluster.admitPeer at h
  split at h
  · cases h
  · split at h
    · cases h
    · rename_i parsed hparse
      have hvalid := isValidHostPort_of_parse hparse
      split at h
      · cases h
      · split at h
        · split at h
          · cases h
          · exact (Prod.mk.inj (Except.ok.inj h)).2 ▸ hvalid
        · split at h
          · cases h
          · split at h
            · exact (Prod.mk.inj (Except.ok.inj h)).2 ▸ hvalid
            · split at h
              · cases h
              · exact (Prod.mk.inj (Except.ok.inj h)).2 ▸ hvalid

theorem proposePeer_rejected (h : (b.proposePeer c env address siteId endpoint).2 = false) :
    ∃ error, b.proposePeer c env address siteId endpoint =
      (b.withCluster (c.withPeers (c.peerManager.removePeer siteId).1)).fail error := by
  unfold proposePeer at h ⊢
  by_cases hrunning : c.raftNode.running = false
  · simp only [if_pos hrunning]
    exact ⟨_, rfl⟩
  · simp only [if_neg hrunning] at h ⊢
    cases hendpoint : raftEndpointFromSyncEndpoint endpoint siteId with
    | none => exact ⟨_, rfl⟩
    | some raftEndpoint =>
      rw [hendpoint] at h
      cases hchange : membershipChange env.replies with
      | ok =>
        simp only [hchange] at h
        cases h
      | error raftError =>
        simp only [hchange] at h ⊢
        by_cases hretry : isRetryableMembershipError raftError = true
        · rw [if_pos hretry] at h
          cases h
        · rw [if_neg hretry]
          exact ⟨_, rfl⟩

theorem withdrawalHidden_iff {m : PeerManager} :
    (∀ other, (m.removePeer siteId).1.endpoint? other = m.endpoint? other) ↔ WithdrawalHidden m siteId := by
  have hsite : (m.removePeer siteId).1.endpoint? siteId = m.endpoint? siteId ↔ WithdrawalHidden m siteId := by
    rw [endpoint?_removePeer, if_pos rfl, endpoint?_eq, WithdrawalHidden]
    cases m.manualPeers.find? siteId with
    | none => simp
    | some peer => simp
  constructor
  · intro h
    exact hsite.mp (h siteId)
  · intro h other
    by_cases hother : other = siteId
    · rw [hother]
      exact hsite.mpr h
    · rw [endpoint?_removePeer, if_neg hother]

theorem addPeer_unchanged_iff (h : (b.clusterAddPeer isAddress getenv env address).2 = false) :
    Unchanged b (b.clusterAddPeer isAddress getenv env address).1 ↔
      b.Undisturbed isAddress getenv (.addPeer env address) := by
  unfold clusterAddPeer at h ⊢
  cases hcluster : b.cluster with
  | none =>
    refine iff_of_true (unchanged_fail b _) ?_
    intro c siteId endpoint hc
    rw [hcluster] at hc
    cases hc
  | some c =>
    simp only [hcluster] at h ⊢
    cases hchecked : c.admitPeer isAddress getenv env address with
    | error error =>
      refine iff_of_true (unchanged_fail b _) ?_
      intro c' siteId endpoint hc hok
      obtain rfl := Option.some.inj (hcluster.symm.trans hc)
      rw [hchecked] at hok
      cases hok
    | ok admitted =>
      obtain ⟨siteId, endpoint⟩ := admitted
      simp only [hchecked] at h ⊢
      have hundisturbed : b.Undisturbed isAddress getenv (.addPeer env address) ↔
          (siteId ≠ 0 → WithdrawalHidden c.peerManager siteId) := by
        constructor
        · intro hall
          exact hall c siteId endpoint hcluster hchecked
        · intro hhidden c' siteId' endpoint' hc hok
          obtain rfl := Option.some.inj (hcluster.symm.trans hc)
          obtain ⟨rfl, rfl⟩ := Prod.mk.inj (Except.ok.inj (hchecked.symm.trans hok))
          exact hhidden
      rw [hundisturbed]
      by_cases hadded : (c.peerManager.addManualPeer isAddress siteId endpoint env.nowMs).2 = false
      · rw [if_pos hadded]
        refine iff_of_true (unchanged_fail b _) fun hne => ?_
        rw [PeerManager.addManualPeer, if_neg (by simp [hne, isValid_of_admitPeer hchecked])] at hadded
        cases hadded
      · rw [if_neg hadded] at h ⊢
        obtain ⟨error, hresult⟩ := proposePeer_rejected h
        have hremoved := removePeer_addManualPeer (by simpa using hadded)
        have hne : siteId ≠ 0 := by
          rintro rfl
          exact hadded (by simp [PeerManager.addManualPeer])
        rw [hresult, ← withdrawalHidden_iff]
        constructor
        · intro hsame _ other
          have hpeer := hsame.peers other
          rw [peer?, peer?, hcluster] at hpeer
          change ((c.peerManager.addManualPeer isAddress siteId endpoint env.nowMs).1.removePeer siteId).1.endpoint?
            other = _ at hpeer
          rwa [hremoved] at hpeer
        · intro hhidden
          refine ⟨fun other => ?_, fun other => ?_, rfl, rfl⟩
          · rw [peer?, peer?, hcluster]
            change ((c.peerManager.addManualPeer isAddress siteId endpoint env.nowMs).1.removePeer siteId).1.endpoint?
              other = _
            rw [hremoved]
            exact hhidden hne other
          · rw [member?, member?, hcluster]
            rfl

end AddPeer

section RemovePeer

variable {replies : ℕ → RaftReply} {siteId : Bytes}

theorem dropPeer_rejected {parsed : UInt32} (h : (b.dropPeer c parsed).2 = false) :
    c.peerManager.manualPeers.find? parsed = none ∧ ∃ error, b.dropPeer c parsed =
      (b.withCluster (c.withPeers (c.peerManager.removePeer parsed).1)).fail error := by
  unfold dropPeer at h ⊢
  by_cases hremoved : (c.peerManager.removePeer parsed).2 = false
  · rw [if_pos hremoved]
    refine ⟨?_, _, rfl⟩
    simpa [PeerManager.removePeer] using hremoved
  · rw [if_neg hremoved] at h
    cases h

theorem dropPeer_unchanged_iff {parsed : UInt32} (c' : ActiveCluster) (hcluster : b.cluster = some c)
    (hpeers : c'.peerManager = c.peerManager) (h : (b.dropPeer c' parsed).2 = false) :
    Unchanged b (b.dropPeer c' parsed).1 ↔
      ∀ other, c'.raftNode.members.find? other = c.raftNode.members.find? other := by
  obtain ⟨hmanual, error, hresult⟩ := dropPeer_rejected h
  rw [hresult]
  constructor
  · intro hsame other
    have hmember := hsame.members other
    rwa [member?, member?, hcluster] at hmember
  · intro hmembers
    refine ⟨fun other => ?_, fun other => ?_, rfl, rfl⟩
    · rw [peer?, peer?, hcluster]
      change (c'.peerManager.removePeer parsed).1.endpoint? other = c.peerManager.endpoint? other
      rw [hpeers]
      apply withdrawalHidden_iff.mpr
      intro peer hpeer
      rw [hpeers, hpeer] at hmanual
      cases hmanual
    · rw [member?, member?, hcluster]
      exact hmembers other

theorem removePeer_unchanged_iff (h : (b.clusterRemovePeer replies siteId).2 = false) :
    Unchanged b (b.clusterRemovePeer replies siteId).1 ↔
      b.Undisturbed isAddress getenv (.removePeer replies siteId) := by
  unfold clusterRemovePeer at h ⊢
  cases hcluster : b.cluster with
  | none => exact iff_of_true (unchanged_fail b _) fun c parsed hc => by rw [hcluster] at hc; cases hc
  | some c =>
    simp only [hcluster] at h ⊢
    cases hparse : parsePositiveU32 siteId with
    | none =>
      exact iff_of_true (unchanged_fail b _) fun c parsed _ hparsed => by rw [hparse] at hparsed; cases hparsed
    | some parsed =>
      simp only [hparse] at h ⊢
      have hundisturbed : b.Undisturbed isAddress getenv (.removePeer replies siteId) ↔
          ((c.peerManager.endpoint? parsed).isSome → c.raftNode.running = true →
            c.peerManager.manualPeers.find? parsed = none → membershipChange replies = .ok () →
            c.raftNode.members.find? parsed = none) := by
        simp [Undisturbed, hcluster, hparse]
      rw [hundisturbed]
      by_cases hknown : (c.peerManager.endpoint? parsed).isNone = true
      · rw [if_pos hknown]
        refine iff_of_true (unchanged_fail b _) fun hsome => ?_
        rw [Option.isNone_iff_eq_none.mp hknown] at hsome
        cases hsome
      · rw [if_neg hknown] at h ⊢
        by_cases hrunning : c.raftNode.running = false
        · rw [if_pos hrunning]
          exact iff_of_true (unchanged_fail b _) fun _ hruns => by rw [hrunning] at hruns; cases hruns
        · rw [if_neg hrunning] at h ⊢
          cases hchange : membershipChange replies with
          | error raftError =>
            simp only [hchange] at h ⊢
            have hrefused : ¬ (Except.error raftError : Except Bytes Unit) = .ok () := fun heq => by cases heq
            simp only [hrefused, false_implies, implies_true, iff_true]
            by_cases hretry : isRetryableMembershipError raftError = true
            · rw [if_pos hretry] at h ⊢
              exact (dropPeer_unchanged_iff c hcluster rfl h).mpr fun _ => rfl
            · rw [if_neg hretry]
              exact unchanged_fail b _
          | ok =>
            simp only [hchange] at h ⊢
            have hmanual := (dropPeer_rejected h).1
            rw [dropPeer_unchanged_iff (c.leaveRaft parsed) hcluster rfl h]
            have hsome : (c.peerManager.endpoint? parsed).isSome = true := by
              simpa [Option.isNone_iff_eq_none, Option.isSome_iff_ne_none] using hknown
            have hruns : c.raftNode.running = true := by simpa using hrunning
            have herased : ∀ other, (c.leaveRaft parsed).raftNode.members.find? other =
                if other = parsed then none else c.raftNode.members.find? other :=
                  fun other => FlatMap.find?_erase _ _ _
            constructor
            · intro hsame _ _ _ _
              rw [← hsame parsed, herased, if_pos rfl]
            · intro hnone other
              rw [herased]
              split_ifs with hother
              · rw [hother, hnone hsome hruns hmanual trivial]
              · rfl

end RemovePeer

section Enable

variable {env : EnableEnv} {config : ClusterConfig}

theorem clusterDisable_cluster (b : Bridge) : b.clusterDisable.cluster = none := by
  unfold clusterDisable
  split
  · assumption
  · rfl

structure SameSettings (b b' : Bridge) : Prop where
  mode : b'.runtimeConflictResolution = b.runtimeConflictResolution
  retention : b'.autoCompactRetentionOverrideMs = b.autoCompactRetentionOverrideMs

theorem SameSettings.trans {b b' b'' : Bridge} (h : SameSettings b b') (h' : SameSettings b' b'') :
    SameSettings b b'' :=
  ⟨h'.mode.trans h.mode, h'.retention.trans h.retention⟩

theorem sameSettings_clusterDisable (b : Bridge) : SameSettings b b.clusterDisable := by
  unfold clusterDisable
  split <;> exact ⟨rfl, rfl⟩

theorem sameSettings_clusterAddPeer (b : Bridge) (env : AddPeerEnv) (address : Bytes) :
    SameSettings b (b.clusterAddPeer isAddress getenv env address).1 := by
  unfold clusterAddPeer
  split
  · exact ⟨rfl, rfl⟩
  · split
    · exact ⟨rfl, rfl⟩
    · simp only
      split_ifs
      · exact ⟨rfl, rfl⟩
      · unfold proposePeer
        simp only
        split_ifs
        · exact ⟨rfl, rfl⟩
        · split
          · exact ⟨rfl, rfl⟩
          · split
            · exact ⟨rfl, rfl⟩
            · split_ifs <;> exact ⟨rfl, rfl⟩

theorem addManualPeers_rejected {adds : ℕ → AddPeerEnv} {peers : List Bytes} {i : ℕ}
    (h : (b.addManualPeers isAddress getenv adds i peers).2 = false) :
    (b.addManualPeers isAddress getenv adds i peers).1.cluster = none ∧
      SameSettings b (b.addManualPeers isAddress getenv adds i peers).1 := by
  induction peers generalizing b i with
  | nil => cases h
  | cons peer peers ih =>
    rw [addManualPeers] at h ⊢
    have hadd := @sameSettings_clusterAddPeer isAddress getenv b (adds i) peer
    by_cases hadded : (b.clusterAddPeer isAddress getenv (adds i) peer).2 = true
    · simp only [if_pos hadded] at h ⊢
      obtain ⟨hnone, hsettings⟩ := ih h
      exact ⟨hnone, hadd.trans hsettings⟩
    · simp only [if_neg hadded]
      exact ⟨clusterDisable_cluster _, hadd.trans ⟨(sameSettings_clusterDisable _).mode,
        (sameSettings_clusterDisable _).retention⟩⟩

theorem enable_rejected_late (hearly : b.enableError env config = none)
    (hsecure : validateReplicationSecurity env.tlsError (resolvedConfig getenv config) = none)
    (h : (b.clusterEnable isAddress getenv env config).2 = false) :
    (b.clusterEnable isAddress getenv env config).1.cluster = none ∧
      SameSettings (b.applySettings (resolvedConfig getenv config))
        (b.clusterEnable isAddress getenv env config).1 := by
  unfold clusterEnable at h ⊢
  simp only [hearly, hsecure] at h ⊢
  have hstopped : (if (b.applySettings (resolvedConfig getenv config)).cluster.isSome = true then
      (b.applySettings (resolvedConfig getenv config)).clusterDisable
      else b.applySettings (resolvedConfig getenv config)).cluster = none ∧
      SameSettings (b.applySettings (resolvedConfig getenv config))
        (if (b.applySettings (resolvedConfig getenv config)).cluster.isSome = true then
          (b.applySettings (resolvedConfig getenv config)).clusterDisable
          else b.applySettings (resolvedConfig getenv config)) := by
    split_ifs with hsome
    · exact ⟨clusterDisable_cluster _, sameSettings_clusterDisable _⟩
    · exact ⟨by simpa using hsome, rfl, rfl⟩
  cases hstart : env.startError (resolvedConfig getenv config) with
  | some error =>
    exact ⟨hstopped.1, hstopped.2.mode, hstopped.2.retention⟩
  | none =>
    simp only [hstart] at h ⊢
    obtain ⟨hnone, hsettings⟩ := addManualPeers_rejected h
    exact ⟨hnone, hstopped.2.trans ⟨hsettings.mode, hsettings.retention⟩⟩

theorem enable_unchanged_iff (h : (b.clusterEnable isAddress getenv env config).2 = false) :
    Unchanged b (b.clusterEnable isAddress getenv env config).1 ↔
      b.Undisturbed isAddress getenv (.enable env config) := by
  cases hearly : b.enableError env config with
  | some error =>
    have hresult : b.clusterEnable isAddress getenv env config = b.fail error := by simp only [clusterEnable, hearly]
    rw [hresult]
    exact iff_of_true (unchanged_fail b _) fun hnone => by rw [hearly] at hnone; cases hnone
  | none =>
    have hundisturbed : b.Undisturbed isAddress getenv (.enable env config) ↔
        b.SettingsKept (resolvedConfig getenv config) ∧
          ((validateReplicationSecurity env.tlsError (resolvedConfig getenv config)).isSome ∨ b.Bare) := by
      simp [Undisturbed, hearly]
    rw [hundisturbed]
    cases hsecure : validateReplicationSecurity env.tlsError (resolvedConfig getenv config) with
    | some error =>
      have hresult : b.clusterEnable isAddress getenv env config =
          (b.applySettings (resolvedConfig getenv config)).fail error := by
        simp only [clusterEnable, hearly, hsecure]
      rw [hresult]
      constructor
      · intro hsame
        exact ⟨⟨hsame.mode, hsame.retention⟩, .inl rfl⟩
      · rintro ⟨hkept, -⟩
        exact ⟨fun _ => rfl, fun _ => rfl, hkept.mode, hkept.retention⟩
    | none =>
      obtain ⟨hcluster, hsettings⟩ := enable_rejected_late hearly hsecure h
      have hpeer : ∀ siteId, (b.clusterEnable isAddress getenv env config).1.peer? siteId = none := by
        intro siteId
        rw [peer?, hcluster]
        rfl
      have hmember : ∀ siteId, (b.clusterEnable isAddress getenv env config).1.member? siteId = none := by
        intro siteId
        rw [member?, hcluster]
        rfl
      constructor
      · intro hsame
        refine ⟨⟨hsettings.mode.symm.trans hsame.mode, hsettings.retention.symm.trans hsame.retention⟩, .inr ?_⟩
        intro siteId
        exact ⟨(hsame.peers siteId).symm.trans (hpeer siteId), (hsame.members siteId).symm.trans (hmember siteId)⟩
      · rintro ⟨hkept, hbare⟩
        have hbare : b.Bare := hbare.resolve_left (by simp)
        refine ⟨fun siteId => ?_, fun siteId => ?_, hsettings.mode.trans hkept.mode,
          hsettings.retention.trans hkept.retention⟩
        · rw [hpeer, (hbare siteId).1]
        · rw [hmember, (hbare siteId).2]

end Enable

/-- A command that is rejected changes nothing exactly when its rejection cannot come after a write that shows. -/
theorem rejected_command_changes_nothing_iff (b : Bridge) (command : ClusterCommand)
    (h : (b.execute isAddress getenv command).2 = false) :
    Unchanged b (b.execute isAddress getenv command).1 ↔ b.Undisturbed isAddress getenv command := by
  cases command with
  | enable env config => exact enable_unchanged_iff h
  | addPeer env address => exact addPeer_unchanged_iff h
  | removePeer replies siteId => exact removePeer_unchanged_iff h

end Commands

def sampleEndpoint : PeerEndpoint := ⟨ofString "node", 9000⟩

def sampleCluster : ActiveCluster where
  config := { clusterName := ofString "c", clusterSharedSecret := ofString "s" }
  peerManager := { clusterName := ofString "c" }
  nextPeerSiteId := 2

def knowingManual : ActiveCluster :=
  sampleCluster.withPeers { sampleCluster.peerManager with manualPeers := FlatMap.empty.insert 7 ⟨sampleEndpoint, 5⟩ }

def knowingDiscovered : ActiveCluster :=
  (sampleCluster.withPeers
    { sampleCluster.peerManager with discoveredPeers := FlatMap.empty.insert 7 ⟨sampleEndpoint, 5⟩ }).joinRaft 7
      (ofString "node:9007")

def refusing : ℕ → RaftReply := fun _ => .refused (ofString "no quorum")

def namingSeven : AddPeerEnv := { probe := { ok := true, remoteSiteId := some 7 }, replies := refusing }

def unsupportedSchema : ClusterConfig where
  clusterName := ofString "c"
  syncPort := 9000
  conflictResolution := ofString "site_priority"
  minSupportedSyncSchemaVersion := 2

theorem refused_new_peer_leaves_no_trace :
    Unchanged { cluster := some knowingDiscovered } (({ cluster := some knowingDiscovered } : Bridge).execute
      (fun _ => false) (fun _ => none) (.addPeer { replies := refusing } (ofString "other:9000"))).1 := by
  apply (rejected_command_changes_nothing_iff _ _ (by decide +kernel)).mpr
  intro c siteId endpoint hc _ _ peer hpeer
  obtain rfl := Option.some.inj hc
  cases hpeer

def LeavesTrace (b : Bridge) (command : ClusterCommand) : Prop :=
  (b.execute (fun _ => false) (fun _ => none) command).2 = false ∧
    ¬ Unchanged b (b.execute (fun _ => false) (fun _ => none) command).1

theorem rejected_commands_leave_traces :
    LeavesTrace {} (.enable {} unsupportedSchema) ∧
      LeavesTrace { cluster := some knowingManual } (.addPeer namingSeven (ofString "node:9000")) ∧
      LeavesTrace { cluster := some knowingDiscovered } (.removePeer (fun _ => .applied) (ofString "7")) := by
  refine ⟨⟨by decide, ?_⟩, ⟨by decide, ?_⟩, ⟨by decide, ?_⟩⟩
  · intro hsame
    exact absurd hsame.mode (by decide)
  · intro hsame
    exact absurd (hsame.peers 7) (by decide)
  · intro hsame
    exact absurd (hsame.members 7) (by decide)

end Tightrope.Bridge
