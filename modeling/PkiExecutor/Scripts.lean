/-
# `PkiExecutor.Scripts` — what text a guest can make the shell run

A role without `vm:exec-arbitrary` cannot turn a parameter into script text: the
entry in force under a name fixes the text, up to the tier of `ca.install`.  Two
dispatches of one name therefore run the same text whatever their parameters,
their hosts and the answers of the shell, and the texts that any sequence of
guest dispatches can run are a list known beforehand.
-/
import PkiExecutor.Catalog

namespace PkiExecutor

variable {unix : Bool}

theorem dispatch_queries (host : Host) (unix : Bool) (name : String) (role : Role)
    (params : Params) (world : List ShellCall → ShellCall → ShellReply) (past : List ShellCall) :
    let o := ((buildDefaultRegistry host unix).dispatch name role params).run world past
    Event.queries o.trace = [] ∨
      ∃ e c, entryOf unix name = some e ∧ role.has e.capability = true ∧
        e.scripting.text params = some c.script ∧ Event.queries o.trace = [c] := by
  intro o
  rcases dispatch_default host unix name role params with ⟨e, hd⟩ | ⟨e, p, he, hr, hp, hd⟩
  · exact .inl (by simp only [o, hd]; rfl)
  · have ho : Event.queries o.trace = Event.queries (p.run world past).trace := by
      simp only [o, hd, Prog.run_mapErr]
    rw [ho]
    rcases hp.queries world past with hq | ⟨s, hs, hq⟩
    · exact .inl hq
    · exact .inr ⟨e, s.call, he, hr, hs, hq⟩

theorem mem_entries_of_entryOf {name : String} {e : Entry} (h : entryOf unix name = some e) :
    e ∈ entries unix :=
  List.mem_reverse.mp (List.mem_of_find?_eq_some h)

theorem mem_entries_unix {e : Entry} (he : e ∈ entries unix) : e ∈ entries true := by
  cases unix with
  | true => exact he
  | false => exact List.mem_append_left _ (by simpa [entries] using he)

theorem parameter_entry {e : Entry} (he : e ∈ entries unix) (hs : e.scripting = .parameter) :
    e.capability = .vmExecArbitrary := by
  have h : ∀ e ∈ entries true, e.scripting = .parameter → e.capability = .vmExecArbitrary := by
    simp [entries, baseEntries, unixEntries]
  exact h e (mem_entries_unix he) hs

theorem byTier_entry {e : Entry} (he : e ∈ entries unix) {root issuing : String}
    (hs : e.scripting = .byTier root issuing) : e.name = "ca.install" := by
  have h : ∀ e ∈ entries true, ∀ r i, e.scripting = .byTier r i → e.name = "ca.install" := by
    simp [entries, baseEntries, unixEntries]
  exact h e (mem_entries_unix he) root issuing hs

theorem guest_text_mem {e : Entry} (he : e ∈ entries unix)
    (hg : Role.guest.has e.capability = true) {params : Params} {text : String}
    (ht : e.scripting.text params = some text) : text ∈ e.scripting.texts := by
  cases hs : e.scripting with
  | fixed s =>
      rw [hs] at ht
      cases ht
      exact List.mem_singleton.mpr rfl
  | byTier root issuing =>
      rw [hs] at ht
      cases ht
      cases isIssuing params <;> simp [Scripting.texts]
  | native =>
      rw [hs] at ht
      cases ht
  | parameter =>
      rw [parameter_entry he hs] at hg
      exact absurd hg (by decide)

/-- The texts of the commands open to guests. -/
def guestScripts (unix : Bool) : List String :=
  ((entries unix).filter fun e => Role.guest.has e.capability).flatMap (·.scripting.texts)

/-- One request of a guest, with what its host says at the time. -/
structure GuestRequest where
  host : Host
  name : String
  params : Params

/-- A request is dispatched as a guest's. -/
def GuestRequest.dispatch (unix : Bool) (q : GuestRequest) : Dispatch :=
  (buildDefaultRegistry q.host unix).dispatch q.name .guest q.params

/-- The text of the one call of a guest dispatch, if it puts one, is that of the
entry in force. -/
theorem guest_queries (unix : Bool) (q : GuestRequest)
    (world : List ShellCall → ShellCall → ShellReply) (past : List ShellCall) :
    let o := (q.dispatch unix).run world past
    Event.queries o.trace = [] ∨
      ∃ e c, entryOf unix q.name = some e ∧ Role.guest.has e.capability = true ∧
        e.scripting.text q.params = some c.script ∧ Event.queries o.trace = [c] :=
  dispatch_queries q.host unix q.name .guest q.params world past

/-- A call of a guest runs under a text of the entry in force, which is open to
guests. -/
theorem guest_call_entry {q : GuestRequest} {world : List ShellCall → ShellCall → ShellReply}
    {past : List ShellCall} {c : ShellCall}
    (hc : c ∈ Event.queries ((q.dispatch unix).run world past).trace) :
    ∃ e ∈ entries unix, e.name = q.name ∧ Role.guest.has e.capability = true ∧
      c.script ∈ e.scripting.texts := by
  rcases guest_queries unix q world past with h | ⟨e, c', he, hg, ht, h⟩
  · rw [h] at hc
    exact absurd hc List.not_mem_nil
  · obtain rfl : c = c' := by simpa [h] using hc
    have hmem := mem_entries_of_entryOf he
    exact ⟨e, hmem, by simpa using List.find?_some he, hg, guest_text_mem hmem hg ht⟩

theorem guest_call_listed {q : GuestRequest} {world : List ShellCall → ShellCall → ShellReply}
    {past : List ShellCall} {c : ShellCall}
    (hc : c ∈ Event.queries ((q.dispatch unix).run world past).trace) :
    c.script ∈ guestScripts unix := by
  obtain ⟨e, hmem, -, hg, ht⟩ := guest_call_entry hc
  exact List.mem_flatMap.mpr ⟨e, List.mem_filter.mpr ⟨hmem, hg⟩, ht⟩

theorem guest_cannot_run_parameter (q : GuestRequest) (hn : q.name = "powershell.exec_arbitrary")
    (world : List ShellCall → ShellCall → ShellReply) (past : List ShellCall) :
    Event.queries ((q.dispatch unix).run world past).trace = [] := by
  rcases guest_queries unix q world past with h | ⟨e, c, he, hg, -, -⟩
  · exact h
  · rw [hn] at he
    have hc : e.capability = .vmExecArbitrary := by
      cases unix <;> (cases he; rfl)
    rw [hc] at hg
    exact absurd hg (by decide)

/-- Two executions under one name run the same text. -/
theorem guest_scripts_agree (q q' : GuestRequest) (hn : q.name = q'.name)
    (ht : q.name = "ca.install" → isIssuing q.params = isIssuing q'.params)
    (world world' : List ShellCall → ShellCall → ShellReply) (past past' : List ShellCall)
    (hr : Event.queries ((q.dispatch unix).run world past).trace ≠ [])
    (hr' : Event.queries ((q'.dispatch unix).run world' past').trace ≠ []) :
    (Event.queries ((q.dispatch unix).run world past).trace).map (·.script) =
      (Event.queries ((q'.dispatch unix).run world' past').trace).map (·.script) := by
  obtain ⟨e, c, he, hg, htext, hq⟩ := (guest_queries unix q world past).resolve_left hr
  obtain ⟨e', c', he', -, htext', hq'⟩ :=
    (guest_queries unix q' world' past').resolve_left hr'
  obtain rfl : e = e' := Option.some.inj (he.symm.trans (hn ▸ he'))
  have hmem := mem_entries_of_entryOf he
  have hsame : e.scripting.text q.params = e.scripting.text q'.params := by
    cases hs : e.scripting with
    | fixed s => rfl
    | native => rfl
    | byTier root issuing =>
        have hname : e.name = q.name := by simpa using List.find?_some he
        rw [Scripting.text, Scripting.text, ht (hname ▸ byTier_entry hmem hs)]
    | parameter =>
        rw [parameter_entry hmem hs] at hg
        exact absurd hg (by decide)
  have hscript : c.script = c'.script := by
    have := htext.symm.trans (hsame.trans htext')
    exact Option.some.inj this
  simp only [hq, hq', List.map_cons, List.map_nil, hscript]

/-- Over any sequence of guest dispatches the shell runs texts of the list only. -/
theorem guest_scripts_listed (qs : List GuestRequest)
    (world : List ShellCall → ShellCall → ShellReply) (past : List ShellCall) :
    ∀ o ∈ Prog.runAll world past (qs.map (·.dispatch unix)),
      ∀ c ∈ Event.queries o.trace, c.script ∈ guestScripts unix := by
  intro o ho c hc
  obtain ⟨p, hp, past', rfl⟩ := Prog.mem_runAll ho
  obtain ⟨q, -, rfl⟩ := List.mem_map.mp hp
  exact guest_call_listed hc

/-- Guest inputs never become script text. -/
theorem guest_inputs_never_script (unix : Bool) :
    (∀ (q : GuestRequest) world past, q.name = "powershell.exec_arbitrary" →
      Event.queries ((q.dispatch unix).run world past).trace = []) ∧
    (∀ (q q' : GuestRequest) world world' past past', q.name = q'.name →
      (q.name = "ca.install" → isIssuing q.params = isIssuing q'.params) →
      Event.queries ((q.dispatch unix).run world past).trace ≠ [] →
      Event.queries ((q'.dispatch unix).run world' past').trace ≠ [] →
      (Event.queries ((q.dispatch unix).run world past).trace).map (·.script) =
        (Event.queries ((q'.dispatch unix).run world' past').trace).map (·.script)) ∧
    (∀ (qs : List GuestRequest) world past,
      ∀ o ∈ Prog.runAll world past (qs.map (·.dispatch unix)),
        ∀ c ∈ Event.queries o.trace, c.script ∈ guestScripts unix) :=
  ⟨fun q world past hn => guest_cannot_run_parameter q hn world past,
    fun q q' world world' past past' hn ht =>
      guest_scripts_agree q q' hn ht world world' past past',
    guest_scripts_listed⟩

end PkiExecutor
