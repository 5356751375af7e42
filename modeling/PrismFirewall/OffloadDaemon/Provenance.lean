import PrismFirewall.OffloadDaemon.Agreement

/-!
# Where the entries come from

The daemon makes nothing up: in every state it reaches, each hardware entry and each table
entry carries the key, the action and the rule of a request that was made (`from_requests`),
or those of the other direction if the request was for both.
-/

namespace PrismFirewall.OffloadDaemon

open PrismFirewall.Lib (Dict Machine)

/-- The hardware entry matches the packets of the session. -/
structure MockHwEntry.Serves (entry : MockHwEntry) (key : SessionKey) : Prop where
  vni : entry.vni = key.vni
  srcIp : entry.srcIp = key.srcIp
  dstIp : entry.dstIp = key.dstIp
  srcPort : entry.srcPort = key.srcPort
  dstPort : entry.dstPort = key.dstPort
  protocol : entry.protocol = key.protocol

/-- The hardware entry does what the request asks for. -/
structure HwFrom (req : ProgramSessionRequest) (entry : MockHwEntry) : Prop where
  serves : ∃ key ∈ req.key, entry.Serves key ∨
    req.bidirectional = true ∧ entry.Serves (reverseKey key)
  action : entry.action = req.action
  forwardPort : entry.forwardPort = req.forwardPort

/-- The table entry stands for what the request asks for. -/
structure EntryFrom (req : ProgramSessionRequest) (k : String) (e : SessionEntry) : Prop where
  key : ∃ key ∈ req.key, e.vni = key.vni ∧ (e.key = key ∨
    req.bidirectional = true ∧ e.key = reverseKey key)
  text : k = sessionKeyString e.key
  action : e.action = req.action
  ruleId : e.ruleId = req.ruleId

/-! ### One operation -/

theorem hwFrom_of_programSession (s : OffloadServiceImpl) (now : Nanos)
    (req : ProgramSessionRequest) {h : UInt64} {entry : MockHwEntry}
    (hentry : (s.programSession now req).2.docaManager.entries.get? h = some entry) :
    HwFrom req entry ∨ s.docaManager.entries.get? h = some entry := by
  cases hkey : req.key with
  | none =>
    rw [OffloadServiceImpl.programSession_none hkey] at hentry
    exact Or.inr hentry
  | some key =>
    cases hp : s.docaManager.poisoned with
    | true =>
      rw [OffloadServiceImpl.programSession_poisoned hkey hp] at hentry
      exact Or.inr hentry
    | false =>
      cases hb : req.bidirectional with
      | false =>
        rw [OffloadServiceImpl.programSession_unidirectional hkey hb hp, Dict.get?_insert] at hentry
        split at hentry
        · rw [← Option.some.inj hentry]
          exact Or.inl ⟨⟨key, hkey, Or.inl ⟨rfl, rfl, rfl, rfl, rfl, rfl⟩⟩, rfl, rfl⟩
        · exact Or.inr hentry
      | true =>
        rw [OffloadServiceImpl.programSession_bidirectional hkey hb hp, Dict.get?_insert,
          Dict.get?_insert] at hentry
        split at hentry
        · rw [← Option.some.inj hentry]
          exact Or.inl ⟨⟨key, hkey, Or.inr ⟨hb, ⟨rfl, rfl, rfl, rfl, rfl, rfl⟩⟩⟩, rfl, rfl⟩
        · split at hentry
          · rw [← Option.some.inj hentry]
            exact Or.inl ⟨⟨key, hkey, Or.inl ⟨rfl, rfl, rfl, rfl, rfl, rfl⟩⟩, rfl, rfl⟩
          · exact Or.inr hentry

theorem entryFrom_of_programSession (s : OffloadServiceImpl) (now : Nanos)
    (req : ProgramSessionRequest) {k : String} {e : SessionEntry}
    (he : (s.programSession now req).2.sessionTable.map.get? k = some e) :
    EntryFrom req k e ∨ s.sessionTable.map.get? k = some e := by
  cases hkey : req.key with
  | none =>
    rw [OffloadServiceImpl.programSession_none hkey] at he
    exact Or.inr he
  | some key =>
    cases hp : s.docaManager.poisoned with
    | true =>
      rw [OffloadServiceImpl.programSession_poisoned hkey hp] at he
      exact Or.inr he
    | false =>
      cases hb : req.bidirectional with
      | false =>
        rw [OffloadServiceImpl.programSession_unidirectional hkey hb hp] at he
        simp only [OffloadServiceImpl.insertSession, SessionTable.insert, Dict.get?_insert] at he
        split at he
        · rename_i hk
          rw [← Option.some.inj he]
          exact Or.inl ⟨⟨key, hkey, rfl, Or.inl rfl⟩, hk, rfl, rfl⟩
        · exact Or.inr he
      | true =>
        rw [OffloadServiceImpl.programSession_bidirectional hkey hb hp] at he
        simp only [OffloadServiceImpl.insertSession, SessionTable.insert, Dict.get?_insert] at he
        split at he
        · rename_i hk
          rw [← Option.some.inj he]
          exact Or.inl ⟨⟨key, hkey, rfl, Or.inr ⟨hb, rfl⟩⟩, hk, rfl, rfl⟩
        · split at he
          · rename_i hk
            rw [← Option.some.inj he]
            exact Or.inl ⟨⟨key, hkey, rfl, Or.inl rfl⟩, hk, rfl, rfl⟩
          · exact Or.inr he

/-- The entries agree on all but their counters. -/
def SameButCounters (entry entry' : MockHwEntry) : Prop :=
  { entry with packets := entry'.packets, bytes := entry'.bytes } = entry'

theorem HwFrom.of_same {req : ProgramSessionRequest} {entry entry' : MockHwEntry}
    (h : HwFrom req entry) (hsame : SameButCounters entry entry') : HwFrom req entry' := by
  obtain ⟨⟨key, hkey, hserves⟩, hact, hport⟩ := h
  rw [← show _ = entry' from hsame]
  refine ⟨⟨key, hkey, ?_⟩, hact, hport⟩
  rcases hserves with hs | ⟨hb, hs⟩
  · exact Or.inl ⟨hs.vni, hs.srcIp, hs.dstIp, hs.srcPort, hs.dstPort, hs.protocol⟩
  · exact Or.inr ⟨hb, hs.vni, hs.srcIp, hs.dstIp, hs.srcPort, hs.dstPort, hs.protocol⟩

theorem DocaFlowManager.same_of_querySession (m : DocaFlowManager) (checked : Bool)
    (handle : UInt64) {h : UInt64} {entry' : MockHwEntry}
    (hentry : (m.querySession checked handle).2.entries.get? h = some entry') :
    ∃ entry, m.entries.get? h = some entry ∧ SameButCounters entry entry' := by
  have hself : ∀ {entry}, m.entries.get? h = some entry →
      ∃ entry, m.entries.get? h = some entry ∧ SameButCounters entry entry := fun hget =>
    ⟨_, hget, rfl⟩
  unfold querySession at hentry
  split at hentry
  · exact ⟨_, hentry, rfl⟩
  · split at hentry
    · exact ⟨_, hentry, rfl⟩
    · rename_i entry hget
      have hins : ((m.entries.insert handle
          { entry with packets := entry.packets + 10, bytes := entry.bytes + 15000 }).get? h
            = some entry') := by
        split at hentry <;> exact hentry
      rw [Dict.get?_insert] at hins
      split at hins
      · rename_i hh
        rw [← Option.some.inj hins]
        exact ⟨entry, by rw [hh]; exact hget, rfl⟩
      · exact ⟨_, hins, rfl⟩

theorem get?_of_querySession (s : OffloadServiceImpl) (checked : Bool) (now : Nanos)
    (req : QuerySessionRequest) :
    (∀ h entry', (s.querySession checked now req).2.docaManager.entries.get? h = some entry' →
      ∃ entry, s.docaManager.entries.get? h = some entry ∧ SameButCounters entry entry') ∧
    ∀ k e', (s.querySession checked now req).2.sessionTable.map.get? k = some e' →
      ∃ e packets bytes, s.sessionTable.map.get? k = some e ∧
        (e' = e ∨ e' = e.updateCounters packets bytes) := by
  unfold OffloadServiceImpl.querySession
  split
  · exact ⟨fun h entry' hh => ⟨entry', hh, rfl⟩, fun k e' he => ⟨e', 0, 0, he, Or.inl rfl⟩⟩
  · rename_i key hkey
    split
    · exact ⟨fun h entry' hh => ⟨entry', hh, rfl⟩, fun k e' he => ⟨e', 0, 0, he, Or.inl rfl⟩⟩
    · rename_i entry hentry
      have hsame : ∀ h entry',
          (s.docaManager.querySession checked entry.entryHandle).2.entries.get? h
            = some entry' → ∃ entry, s.docaManager.entries.get? h = some entry ∧
            SameButCounters entry entry' :=
        fun h entry' hh => s.docaManager.same_of_querySession checked entry.entryHandle hh
      split
      · rename_i m hq
        rw [hq] at hsame
        exact ⟨hsame, fun k e' he => ⟨e', 0, 0, he, Or.inl rfl⟩⟩
      · rename_i r m hq
        rw [hq] at hsame
        refine ⟨hsame, fun k e' he => ?_⟩
        simp only [hentry, SessionTable.insert, Dict.get?_insert] at he
        split at he
        · rename_i hk
          rw [hk]
          exact ⟨entry, _, _, hentry, Or.inr (Option.some.inj he).symm⟩
        · exact ⟨e', 0, 0, he, Or.inl rfl⟩

/-! ### Every run -/

/-- **What is in the hardware and in the table was asked for.** -/
theorem from_requests (checked : Bool) (ager : SessionAger) (ops : List Op) :
    (∀ h entry, ((daemon checked ager).run ops).service.docaManager.entries.get? h = some entry →
      ∃ now req, .programSession now req ∈ ops ∧ HwFrom req entry) ∧
    ∀ k e, ((daemon checked ager).run ops).service.sessionTable.map.get? k = some e →
      ∃ now req, .programSession now req ∈ ops ∧ EntryFrom req k e := by
  refine Machine.run_induction (M := daemon checked ager) (P := fun ops d =>
    (∀ h entry, d.service.docaManager.entries.get? h = some entry →
      ∃ now req, .programSession now req ∈ ops ∧ HwFrom req entry) ∧
    ∀ k e, d.service.sessionTable.map.get? k = some e →
      ∃ now req, .programSession now req ∈ ops ∧ EntryFrom req k e) ?_ ?_ ops
  · exact ⟨fun h entry hh => (by cases hh), fun k e he => (by cases he)⟩
  · intro ops op d ih
    have hhw : ∀ h entry, d.service.docaManager.entries.get? h = some entry →
        ∃ now req, Op.programSession now req ∈ ops ++ [op] ∧ HwFrom req entry := by
      intro h entry hh
      obtain ⟨now, req, hmem, hfrom⟩ := ih.1 h entry hh
      exact ⟨now, req, List.mem_append_left _ hmem, hfrom⟩
    have htable : ∀ k e, d.service.sessionTable.map.get? k = some e →
        ∃ now req, Op.programSession now req ∈ ops ++ [op] ∧ EntryFrom req k e := by
      intro k e he
      obtain ⟨now, req, hmem, hfrom⟩ := ih.2 k e he
      exact ⟨now, req, List.mem_append_left _ hmem, hfrom⟩
    cases op with
    | programSession now req =>
      refine ⟨fun h entry hh => ?_, fun k e he => ?_⟩
      · rcases hwFrom_of_programSession d.service now req hh with hfrom | hh
        · exact ⟨now, req, by simp, hfrom⟩
        · exact hhw h entry hh
      · rcases entryFrom_of_programSession d.service now req he with hfrom | he
        · exact ⟨now, req, by simp, hfrom⟩
        · exact htable k e he
    | flushSessions req =>
      obtain ⟨htab, hhard⟩ := d.service.get?_of_flushSessions req
      exact ⟨fun h entry hh => hhw h entry (hhard h entry hh),
        fun k e he => htable k e (htab k e he)⟩
    | querySession now req =>
      obtain ⟨hhard, htab⟩ := get?_of_querySession d.service checked now req
      refine ⟨fun h entry' hh => ?_, fun k e' he => ?_⟩
      · obtain ⟨entry, hget, hsame⟩ := hhard h entry' hh
        obtain ⟨now', req', hmem, hfrom⟩ := hhw h entry hget
        exact ⟨now', req', hmem, hfrom.of_same hsame⟩
      · obtain ⟨e, packets, bytes, hget, hor⟩ := htab k e' he
        obtain ⟨now', req', hmem, hfrom⟩ := htable k e hget
        refine ⟨now', req', hmem, ?_⟩
        rcases hor with rfl | rfl
        · exact hfrom
        · exact ⟨hfrom.key, hfrom.text, hfrom.action, hfrom.ruleId⟩
    | sweep now =>
      refine ⟨fun h entry hh => hhw h entry ?_, fun k e he => htable k e ?_⟩
      · have hsweep : (ager.sweep d.service now d.tracker).1.docaManager.entries.get? h
            = some entry := hh
        rw [SessionAger.sweep_fst] at hsweep
        exact (DocaFlowManager.foldl_removeBoth_frame _ _).2.2 h entry hsweep
      · exact ((ager.get?_sweep now d.service d.tracker).mp he).1

end PrismFirewall.OffloadDaemon
