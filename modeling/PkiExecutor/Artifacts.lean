/-
# `PkiExecutor.Artifacts` — results that carry an artifact

Four commands produce what another host is given: a file, a certificate, a CRL.
The relay lifts fields of their results, so a result without them is a success
that carries nothing.  Three of the commands look at their script's output before
they report; `artifact_carried_iff` says what that leaves to `ca.publish_crl`.
-/
import PkiExecutor.Catalog

namespace PkiExecutor

/-- A command that produces artifacts, with the fields of its result that are
lifted. -/
structure Producer where
  handler : CommandHandler
  lifted : List String

/-- The fields of a publication. -/
def CaPublishCrl.lifted : List String :=
  ["certificateContentB64", "baseCrlContentB64", "certificateFileName", "baseCrlFileName"]

/-- The commands that hand on a file, and the members they put it in. -/
def producers (host : Host) : List Producer :=
  [⟨FileRead.handler host, ["contentB64"]⟩, ⟨Linux.FileRead.handler host, ["contentB64"]⟩,
    ⟨CertSecureMakeCert.handler host, ["contentB64"]⟩,
    ⟨CaPublishCrl.handler host, CaPublishCrl.lifted⟩]

/-- The fields hold strings. -/
def Carries (keys : List String) (v : Json) : Prop :=
  ∀ key ∈ keys, (v.get key).asStr.isSome = true

theorem carries_singleton {key : String} {v : Json} (h : ¬ (v.get key).asStr.isNone = true) :
    Carries [key] v := by
  refine List.forall_mem_singleton.mpr ?_
  rwa [Option.isNone_iff_eq_none, ← Ne, ← Option.isSome_iff_ne_none] at h

/-- What the stage makes of the output carries the fields. -/
def Stage.Fills (s : Stage) (keys : List String) (output : PowerShellOutput) : Prop :=
  ∀ v, s.read output = .ok v → Carries keys v

theorem run_of_performed {h : CommandHandler} {ctx : Params} {s : Stage}
    {output : PowerShellOutput} {past : List ShellCall} (he : h.execute ctx = perform s)
    (hs : output.succeeded = true) :
    ((h.execute ctx).run (fun _ _ => .ok output) past).result = s.read output := by
  rw [he, run_perform]
  exact s.settle_succeeded hs

theorem FileRelay.readStage_fills (host : Host) (script path : String) (output : PowerShellOutput) :
    (readStage host script path).Fills ["contentB64"] output := by
  intro v hv
  change readContent host path output = .ok v at hv
  dsimp only [readContent] at hv
  split at hv
  · cases hv
  · rename_i hnone
    cases hv
    exact carries_singleton hnone

theorem CertSecureMakeCert.stage_fills (host : Host) (certPath keyPath : String)
    (names : List String) (ip days : String) (output : PowerShellOutput) :
    (stage host certPath keyPath names ip days).Fills ["contentB64"] output := by
  intro v hv
  change readCert host certPath keyPath names ip output = .ok v at hv
  dsimp only [readCert] at hv
  split at hv
  · cases hv
  · rename_i hnone
    cases hv
    exact carries_singleton hnone

theorem CaPublishCrl.stage_fills_iff (host : Host) (path : String) (output : PowerShellOutput) :
    (stage host path).Fills lifted output ↔ Carries lifted (parseJson host output.stdout) := by
  have hresult : ∀ v, (stage host path).read output = .ok v →
      (Carries lifted v ↔ Carries lifted (parseJson host output.stdout)) := by
    intro v hv
    cases hv
    simp only [Carries, lifted, List.forall_mem_cons, List.not_mem_nil, false_imp_iff,
      implies_true]
    exact Iff.rfl
  constructor
  · intro h
    exact (hresult _ rfl).mp (h _ rfl)
  · intro h v hv
    exact (hresult v hv).mpr h

/-- Every result of a producer over an output of its script carries the artifact
exactly if the command is not `ca.publish_crl`, or the output carries it. -/
theorem artifact_carried_iff (host : Host) (p : Producer) (hp : p ∈ producers host) (ctx : Params)
    (past : List ShellCall) (output : PowerShellOutput)
    (ha : (p.handler.execute ctx).failed = false) (hs : output.succeeded = true) :
    (∀ v, ((p.handler.execute ctx).run (fun _ _ => .ok output) past).result = .ok v →
      Carries p.lifted v) ↔
      p.handler.name ≠ "ca.publish_crl" ∨ Carries p.lifted (parseJson host output.stdout) := by
  simp only [producers, List.mem_cons, List.not_mem_nil, or_false] at hp
  have hread : "file.read" ≠ "ca.publish_crl" := by decide
  have hmake : "certsecure.make_cert" ≠ "ca.publish_crl" := by decide
  rcases hp with rfl | rfl | rfl | rfl
  · obtain ⟨_, ⟨path, -, -, rfl⟩, he⟩ :=
      (FileRelay.read_staged rfl FileRead.script host ctx).performed ha
    rw [run_of_performed he hs]
    exact iff_of_true (FileRelay.readStage_fills host _ path output) (.inl hread)
  · obtain ⟨_, ⟨path, -, -, rfl⟩, he⟩ :=
      (FileRelay.read_staged rfl Linux.FileRead.script host ctx).performed ha
    rw [run_of_performed he hs]
    exact iff_of_true (FileRelay.readStage_fills host _ path output) (.inl hread)
  · obtain ⟨_, ⟨certPath, keyPath, names, ip, days, -, rfl⟩, he⟩ :=
      (CertSecureMakeCert.staged host ctx).performed ha
    rw [run_of_performed he hs]
    exact iff_of_true (CertSecureMakeCert.stage_fills host certPath keyPath names ip days output)
      (.inl hmake)
  · obtain ⟨_, ⟨path, -, rfl⟩, he⟩ := (CaPublishCrl.staged host ctx).performed ha
    rw [run_of_performed he hs]
    exact (CaPublishCrl.stage_fills_iff host path output).trans
      ⟨.inr, fun h => h.resolve_left fun hne => hne rfl⟩

/-- The output of a publication, and a parser that reads it. -/
def publishedText : String :=
  "\x7b\"certificateFileName\":\"ca.crt\",\"baseCrlFileName\":\"ca.crl\"," ++
  "\"certificateContentB64\":\"MIIB\",\"baseCrlContentB64\":\"MIIC\"\x7d"

def publishedPayload : Json :=
  .obj [("certificateFileName", .str "ca.crt"), ("baseCrlFileName", .str "ca.crl"),
    ("certificateContentB64", .str "MIIB"), ("baseCrlContentB64", .str "MIIC")]

def publishedHost : Host :=
  { Host.idle with fromStr := fun text =>
      if text = publishedText then some publishedPayload else none }

theorem mem_producers_crl (host : Host) :
    ⟨CaPublishCrl.handler host, CaPublishCrl.lifted⟩ ∈ producers host := by
  simp [producers]

theorem artifact_carried_crl :
    ∃ v, ((CaPublishCrl.execute publishedHost []).run (fun _ _ => .ok ⟨publishedText, "", 0⟩)
        []).result = .ok v ∧ Carries CaPublishCrl.lifted v := by
  refine ⟨_, rfl, (artifact_carried_iff publishedHost _ (mem_producers_crl _) [] []
    ⟨publishedText, "", 0⟩ (by decide) (by decide)).mpr (.inr ?_) _ rfl⟩
  have htrim : Str.trim publishedText = publishedText := by decide +kernel
  have hread : publishedHost.fromStr publishedText = some publishedPayload := by
    show (if publishedText = publishedText then some publishedPayload else none) = _
    rw [if_pos rfl]
  have hparse := parseJson_of_fromStr htrim hread
  rw [hparse]
  have hkeys : ∀ key ∈ CaPublishCrl.lifted, (publishedPayload.get key).asStr.isSome = true := by
    decide
  exact hkeys

/-- A publication whose script prints nothing succeeds with nothing. -/
theorem publish_carries_nothing :
    ¬ ∀ (host : Host), ∀ p ∈ producers host, ∀ (ctx : Params) (past : List ShellCall)
      (output : PowerShellOutput), (p.handler.execute ctx).failed = false →
      output.succeeded = true → ∀ v,
      ((p.handler.execute ctx).run (fun _ _ => .ok output) past).result = .ok v →
        Carries p.lifted v := by
  intro h
  have haccept : (CaPublishCrl.execute .idle []).failed = false := by decide
  have hcarries := h .idle _ (mem_producers_crl _) [] [] ⟨"", "", 0⟩ haccept (by decide) _ rfl
  exact absurd (hcarries "certificateContentB64" List.mem_cons_self) (by decide)

end PkiExecutor
