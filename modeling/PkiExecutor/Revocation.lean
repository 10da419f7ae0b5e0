/-
# `PkiExecutor.Revocation` — what a revocation configuration becomes

The script of `ocsp.configure_revocation` over the COM objects of an Online Responder.  It
reads the responder's configurations into an object, removes the one of the name that
it is given and creates it anew, sets its properties one by one, and saves the object.
Any of these calls can fail.

The objects are no part of the program: `OcspCom` is any implementation of the calls that
the script makes, and `OcspCom.Laws` what is documented of them.  Nothing is said of a
save that fails, which may leave anything behind.

`configure_revocation_whole`: wherever the script stops before it saves, the responder goes
on with the configurations it had, and once the certificate has been read the error names
the phase; if it does not stop, the named configuration has the properties that were asked
for, every other one is as it was, and the command can be run again with the same outcome.
-/
import PkiExecutor.Publication
import PkiExecutor.Scripted

namespace PkiExecutor

namespace OcspConfigureRevocation

/-! ## The objects -/

/-- A property of the CRL provider. -/
inductive ProviderProperty
  | urls (urls : List String)
  | number (n : Int)
  deriving DecidableEq, Repr

/-- The properties of an `IOCSPCAConfiguration` that the script sets. -/
inductive CfgProperty
  | caConfig (value : String)
  | signingCertificateTemplate (value : String)
  | hashAlgorithm (value : String)
  | signingFlags (value : Int)
  | providerProperties (value : List (String × ProviderProperty))
  | providerClsid (value : String)
  deriving DecidableEq, Repr

/-- `IOCSPCAConfiguration`, as far as the command sets it. -/
structure CaConfiguration where
  identifier : String
  caCertificate : List UInt8
  caConfig : String
  signingCertificateTemplate : String
  hashAlgorithm : String
  signingFlags : Int
  providerProperties : List (String × ProviderProperty)
  providerClsid : String
  deriving DecidableEq, Repr

/-- A property of the configuration is given a value. -/
def CaConfiguration.set (cfg : CaConfiguration) : CfgProperty → CaConfiguration
  | .caConfig value => { cfg with caConfig := value }
  | .signingCertificateTemplate value => { cfg with signingCertificateTemplate := value }
  | .hashAlgorithm value => { cfg with hashAlgorithm := value }
  | .signingFlags value => { cfg with signingFlags := value }
  | .providerProperties value => { cfg with providerProperties := value }
  | .providerClsid value => { cfg with providerClsid := value }

/-- The calls that the script makes on `CertAdm.OCSPAdmin`, the configurations it holds and
`CertAdm.OCSPPropertyCollection`.  The last two it has by references. -/
inductive ComCall (ρ : Type)
  | newAdmin
  | getConfiguration
  | identifiers
  | deleteCaConfiguration (name : String)
  | createCaConfiguration (name : String) (certificate : List UInt8)
  | setProperty (cfg : ρ) (property : CfgProperty)
  | newProperties
  | createProperty (props : ρ) (name : String) (value : ProviderProperty)
  | getAllProperties (props : ρ)
  | setConfiguration
  deriving DecidableEq

/-- What a call returns. -/
def ComCall.Reply {ρ : Type} : ComCall ρ → Type
  | .identifiers => List String
  | .createCaConfiguration _ _ => ρ
  | .newProperties => ρ
  | .getAllProperties _ => List (String × ProviderProperty)
  | _ => Unit

/-- An implementation of the objects, with the responder behind them.  A call that fails may
have done something all the same. -/
structure OcspCom where
  State : Type
  Ref : Type
  call : (c : ComCall Ref) → State → Except String c.Reply × State
  /-- `-eq` on identifiers -/
  eq : String → String → Bool

/-- What is documented of the objects.  Configurations are told apart by keys, as two
identifiers may be one to the responder. -/
structure OcspCom.Laws (com : OcspCom) where
  Key : Type
  [decEq : DecidableEq Key]
  key : String → Key
  /-- the configurations that the responder goes by -/
  saved : com.State → Key → Option CaConfiguration
  /-- those that the `OCSPAdmin` object holds -/
  pending : com.State → Key → Option CaConfiguration
  /-- the configuration to which a reference leads -/
  subject : com.Ref → Key
  /-- the properties in a collection -/
  held : com.State → com.Ref → List (String × ProviderProperty)
  /-- only `SetConfiguration` reaches the responder -/
  saved_of_call : ∀ c s, c ≠ .setConfiguration → saved (com.call c s).2 = saved s
  /-- looking at the collection and building properties leaves the object alone -/
  pending_of_look : ∀ c s, c = .identifiers ∨ c = .newProperties ∨
    (∃ props, c = .getAllProperties props) ∨
    (∃ props name value, c = .createProperty props name value) →
    pending (com.call c s).2 = pending s
  loads : ∀ s s', com.call .getConfiguration s = (.ok (), s') → pending s' = saved s'
  deletes : ∀ name s s', com.call (.deleteCaConfiguration name) s = (.ok (), s') →
    pending s' = Function.update (pending s) (key name) none
  creates : ∀ name certificate s ref s',
    com.call (.createCaConfiguration name certificate) s = (.ok ref, s') →
    subject ref = key name ∧ ∃ cfg : CaConfiguration, cfg.identifier = name ∧
      cfg.caCertificate = certificate ∧
      pending s' = Function.update (pending s) (key name) (some cfg)
  sets : ∀ ref property s s', com.call (.setProperty ref property) s = (.ok (), s') →
    pending s' = Function.update (pending s) (subject ref)
      ((pending s (subject ref)).map (·.set property))
  newProperties_held : ∀ s props s', com.call .newProperties s = (.ok props, s') →
    held s' props = []
  createProperty_held : ∀ props name value s s',
    com.call (.createProperty props name value) s = (.ok (), s') →
    held s' props = held s props ++ [(name, value)]
  getAllProperties_held : ∀ props s all s', com.call (.getAllProperties props) s = (.ok all, s') →
    all = held s props
  /-- a save that succeeds; of one that fails nothing is known -/
  saves : ∀ s s', com.call .setConfiguration s = (.ok (), s') → saved s' = pending s

/-- The files of the host, its objects, and the script's `$stage`. -/
structure OcspHost (com : OcspCom) where
  files : String → Option (List UInt8)
  objects : com.State
  stage : String

variable {com : OcspCom}

/-! ## The script -/

open Effect

/-- `[System.IO.File]::ReadAllBytes` -/
def readAllBytes (path : String) : Effect (OcspHost com) (List UInt8) := command fun s =>
  match s.files path with
  | some bytes => .ok (bytes, s)
  | none => .error ("Could not find file '" ++ path ++ "'.")

/-- `$stage = …` -/
def enter (stage : String) : Effect (OcspHost com) Unit := assign fun s => { s with stage }

/-- A call on an object. -/
def invoke (c : ComCall com.Ref) : Effect (OcspHost com) c.Reply := act fun s =>
  match com.call c s.objects with
  | (result, objects) => (result, { s with objects })

/-- `[int]` at a text of digits, with a plus sign or none. -/
def castInt (text : String) : Effect (OcspHost com) Int := fun s =>
  match Str.parseU32 text with
  | some n => (.ok n, s)
  | none => (.error ("Cannot convert value \"" ++ text ++ "\" to type \"System.Int32\"."), s)

/-- The named configuration is removed where it is found, and created anew. -/
def recreate (name : String) (bytes : List UInt8) : Effect (OcspHost com) com.Ref := do
  let identifiers ← invoke .identifiers
  let existing := List.filter (com.eq · name) identifiers
  when (0 < existing.length) (invoke (.deleteCaConfiguration name))
  invoke (.createCaConfiguration name bytes)

/-- The properties of the CRL provider. -/
def createProperties (c : Config) : Effect (OcspHost com) (List (String × ProviderProperty)) := do
  let props ← invoke .newProperties
  invoke (.createProperty props "BaseCrlUrls" (.urls (usedUrls c.baseCrlUrls)))
  when (c.deltaCrlUrls ≠ "")
    (invoke (.createProperty props "DeltaCrlUrls" (.urls (usedUrls c.deltaCrlUrls))))
  let minutes ← castInt c.refreshMinutes
  invoke (.createProperty props "RefreshTimeOut" (.number (minutes * 60000)))
  invoke (.getAllProperties props)

/-- The properties of `$cfg`. -/
def fill (c : Config) (signingFlags providerClsid : String) (cfg : com.Ref) :
    Effect (OcspHost com) Unit := do
  invoke (.setProperty cfg (.caConfig c.caConfig))
  invoke (.setProperty cfg (.signingCertificateTemplate c.template))
  invoke (.setProperty cfg (.hashAlgorithm "SHA256"))
  let flags ← castInt signingFlags
  invoke (.setProperty cfg (.signingFlags flags))
  let properties ← createProperties c
  invoke (.setProperty cfg (.providerProperties properties))
  invoke (.setProperty cfg (.providerClsid providerClsid))

/-- The block between `try` and `catch`. -/
def configure (c : Config) (signingFlags providerClsid : String) (bytes : List UInt8) :
    Effect (OcspHost com) Unit := do
  invoke .newAdmin
  invoke .getConfiguration
  enter "creating the revocation configuration"
  let cfg ← recreate c.name bytes
  enter "setting revocation configuration properties"
  fill c signingFlags providerClsid cfg
  enter "saving the responder configuration"
  invoke .setConfiguration

/-- The script over its arguments. -/
def scriptEffect (com : OcspCom) : List String → Effect (OcspHost com) String
  | [name, caConfig, caCertPath, template, refreshMinutes, baseCrlUrls, deltaCrlUrls,
      signingFlags, providerClsid] => do
      let c : Config :=
        ⟨name, caConfig, caCertPath, template, refreshMinutes, baseCrlUrls, deltaCrlUrls⟩
      let there ← look fun s => (s.files caCertPath).isSome
      require there ("CA certificate not found at " ++ caCertPath)
      let bytes ← readAllBytes caCertPath
      enter "opening the responder configuration"
      (configure c signingFlags providerClsid bytes).attempt fun e => do
        let s ← get
        throw (s.stage ++ " failed: " ++ e)
      return name
  | _ => throw ""

/-- A call of the script. -/
def effect (com : OcspCom) : ShellCall → Effect (OcspHost com) String :=
  ofScript script (scriptEffect com) (throw "")

/-! ## What it yields -/

/-- The phase in which the responder is changed. -/
def saving : String := "saving the responder configuration"

/-- The phases that an error names. -/
def phases : List String :=
  ["opening the responder configuration", "creating the revocation configuration",
    "setting revocation configuration properties", saving]

theorem creating_mem : "creating the revocation configuration" ∈ phases :=
  List.mem_cons_of_mem _ List.mem_cons_self

theorem setting_mem : "setting revocation configuration properties" ∈ phases :=
  List.mem_cons_of_mem _ (List.mem_cons_of_mem _ List.mem_cons_self)

theorem saving_mem : saving ∈ phases :=
  List.mem_cons_of_mem _ (List.mem_cons_of_mem _ (List.mem_cons_of_mem _ List.mem_cons_self))

/-- The properties that are asked for. -/
def wantedProperties (c : Config) (minutes : Nat) : List (String × ProviderProperty) :=
  (crlProperties usedUrls c.baseCrlUrls c.deltaCrlUrls).map (fun p => (p.1, .urls p.2)) ++
    [("RefreshTimeOut", .number (minutes * 60000))]

/-- The configuration that is asked for. -/
def wanted (c : Config) (bytes : List UInt8) (minutes : Nat) : CaConfiguration where
  identifier := c.name
  caCertificate := bytes
  caConfig := c.caConfig
  signingCertificateTemplate := c.template
  hashAlgorithm := "SHA256"
  signingFlags := ocspSigningFlags
  providerProperties := wantedProperties c minutes
  providerClsid := crlProviderClsid

attribute [instance] OcspCom.Laws.decEq

variable (laws : com.Laws)

/-- A run that has not come to its save: the responder is as it was. -/
structure Working (s s' : OcspHost com) : Prop where
  files : s'.files = s.files
  saved : laws.saved s'.objects = laws.saved s.objects
  stage : s'.stage ∈ phases

/-- A run that has stopped: the responder is as it was, or the run stopped at the save. -/
structure Stuck (s s' : OcspHost com) : Prop where
  files : s'.files = s.files
  saved : laws.saved s'.objects = laws.saved s.objects ∨ s'.stage = saving
  stage : s'.stage ∈ phases

variable {laws} {s₀ s : OcspHost com} {c : Config} {bytes : List UInt8}

theorem Working.stuck (h : Working laws s₀ s) : Stuck laws s₀ s := ⟨h.files, .inl h.saved, h.stage⟩

theorem Working.enter (h : Working laws s₀ s) {stage : String} (hs : stage ∈ phases) :
    Working laws s₀ { s with stage } := ⟨h.files, h.saved, hs⟩

theorem Working.invoke (h : Working laws s₀ s) {call : ComCall com.Ref}
    (hc : call ≠ .setConfiguration) {Q : call.Reply → OcspHost com → Prop}
    (hQ : ∀ a objects, com.call call s.objects = (.ok a, objects) →
      Working laws s₀ { s with objects } → Q a { s with objects }) :
    (OcspConfigureRevocation.invoke call).Yields s Q fun _ s' => Stuck laws s₀ s' := by
  have hnext : Working laws s₀ { s with objects := (com.call call s.objects).2 } :=
    ⟨h.files, (laws.saved_of_call call s.objects hc).trans h.saved, h.stage⟩
  refine .act (fun e s' hf => ?_) fun a s' hf => ?_
  · obtain ⟨-, rfl⟩ := Prod.mk.inj hf
    exact hnext.stuck
  · obtain ⟨ha, rfl⟩ := Prod.mk.inj hf
    exact hQ a _ (Prod.ext ha rfl) hnext

theorem castInt_yields {text : String} {n : Nat} (h : Str.parseU32 text = some n)
    {Q : Int → OcspHost com → Prop} {E : String → OcspHost com → Prop} (hQ : Q n s) :
    (castInt text).Yields s Q E := by
  intro faults
  simp only [castInt, h]
  exact hQ

/-- The object holds what it held, but for the named configuration. -/
def Holds (laws : com.Laws) (s : OcspHost com) (base : laws.Key → Option CaConfiguration)
    (name : String) (cfg : CaConfiguration) : Prop :=
  laws.pending s.objects = Function.update base (laws.key name) (some cfg)

theorem recreate_yields (h : Working laws s₀ s) (name : String) :
    (recreate name bytes).Yields s
      (fun ref s' => Working laws s₀ s' ∧ s'.stage = s.stage ∧ laws.subject ref = laws.key name ∧
        ∃ cfg : CaConfiguration, cfg.identifier = name ∧ cfg.caCertificate = bytes ∧
          Holds laws s' (laws.pending s.objects) name cfg)
      fun _ s' => Stuck laws s₀ s' := by
  -- whether or not it has been deleted, it is created over the same other ones
  have hcreate : ∀ objects, Working laws s₀ { s with objects } →
      (∀ x, Function.update (laws.pending objects) (laws.key name) x =
        Function.update (laws.pending s.objects) (laws.key name) x) →
      (@invoke com (.createCaConfiguration name bytes)).Yields { s with objects }
        (fun ref s' => Working laws s₀ s' ∧ s'.stage = s.stage ∧
          laws.subject ref = laws.key name ∧
          ∃ cfg : CaConfiguration, cfg.identifier = name ∧ cfg.caCertificate = bytes ∧
            Holds laws s' (laws.pending s.objects) name cfg)
        fun _ s' => Stuck laws s₀ s' := by
    intro objects hw hsame
    refine hw.invoke (fun hc => by cases hc) fun ref objects' hcall hw' => ?_
    obtain ⟨hsubject, cfg, hname, hbytes, hpending⟩ := laws.creates _ _ _ _ _ hcall
    exact ⟨hw', rfl, hsubject, cfg, hname, hbytes, hpending.trans (hsame _)⟩
  refine .bind (h.invoke (fun hc => by cases hc) fun identifiers objects hcall hw => ?_)
  have hlook : laws.pending objects = laws.pending s.objects := by
    have hp := laws.pending_of_look .identifiers s.objects (.inl rfl)
    rwa [hcall] at hp
  refine .bind (.when (fun _ => ?_) fun _ => hcreate objects hw fun x => by rw [hlook])
  refine hw.invoke (fun hc => by cases hc) fun _ objects' hcall' hw' => ?_
  refine hcreate objects' hw' fun x => ?_
  rw [laws.deletes _ _ _ hcall', Function.update_idem, hlook]

theorem set_yields {base : laws.Key → Option CaConfiguration} {name : String}
    {cfg : CaConfiguration} (h : Working laws s₀ s) (hp : Holds laws s base name cfg)
    {ref : com.Ref} (hr : laws.subject ref = laws.key name) (property : CfgProperty)
    {Q : Unit → OcspHost com → Prop}
    (hQ : ∀ objects, Working laws s₀ { s with objects } →
      Holds laws { s with objects } base name (cfg.set property) → Q () { s with objects }) :
    (@invoke com (.setProperty ref property)).Yields s Q fun _ s' => Stuck laws s₀ s' := by
  refine h.invoke (fun hc => by cases hc) fun _ objects hcall hw => hQ objects hw ?_
  rw [Holds] at hp ⊢
  rw [laws.sets _ _ _ _ hcall, hr, hp, Function.update_self, Option.map_some, Function.update_idem]

theorem createProperties_yields {minutes : Nat} (h : Working laws s₀ s)
    (hm : Str.parseU32 c.refreshMinutes = some minutes) :
    (createProperties c).Yields s
      (fun all s' => Working laws s₀ s' ∧ s'.stage = s.stage ∧
        laws.pending s'.objects = laws.pending s.objects ∧ all = wantedProperties c minutes)
      fun _ s' => Stuck laws s₀ s' := by
  -- one property more
  have hadd : ∀ {props : com.Ref} {objects : com.State} (name : String) (value : ProviderProperty)
      {Q : Unit → OcspHost com → Prop}, Working laws s₀ { s with objects } →
      laws.pending objects = laws.pending s.objects →
      (∀ objects', Working laws s₀ { s with objects := objects' } →
        laws.pending objects' = laws.pending s.objects →
        laws.held objects' props = laws.held objects props ++ [(name, value)] →
        Q () { s with objects := objects' }) →
      (@invoke com (.createProperty props name value)).Yields { s with objects } Q
        fun _ s' => Stuck laws s₀ s' := by
    intro props objects name value Q hw hp hQ
    refine hw.invoke (fun hc => by cases hc) fun _ objects' hcall hw' => hQ objects' hw' ?_ ?_
    · have hlook := laws.pending_of_look (.createProperty props name value) objects
        (.inr (.inr (.inr ⟨_, _, _, rfl⟩)))
      rw [hcall] at hlook
      exact hlook.trans hp
    · exact laws.createProperty_held _ _ _ _ _ hcall
  refine .bind (h.invoke (fun hc => by cases hc) fun props objects hcall hw => ?_)
  have hp : laws.pending objects = laws.pending s.objects := by
    have hlook := laws.pending_of_look .newProperties s.objects (.inr (.inl rfl))
    rwa [hcall] at hlook
  have hnone := laws.newProperties_held _ _ _ hcall
  refine .bind (hadd _ _ hw hp fun objects₁ hw₁ hp₁ hheld₁ => ?_)
  rw [hnone, List.nil_append] at hheld₁
  -- the refresh time, and what has been collected
  have hrest : ∀ (objects : com.State) (front : List (String × ProviderProperty)),
      Working laws s₀ { s with objects } → laws.pending objects = laws.pending s.objects →
      laws.held objects props = front → front ++ [("RefreshTimeOut", .number (minutes * 60000))] =
        wantedProperties c minutes →
      (do
        let minutes ← castInt c.refreshMinutes
        @invoke com (.createProperty props "RefreshTimeOut" (.number (minutes * 60000)))
        @invoke com (.getAllProperties props)).Yields { s with objects }
        (fun all s' => Working laws s₀ s' ∧ s'.stage = s.stage ∧
          laws.pending s'.objects = laws.pending s.objects ∧ all = wantedProperties c minutes)
        fun _ s' => Stuck laws s₀ s' := by
    intro objects front hw hp hheld hfront
    refine .bind (castInt_yields hm (.bind (hadd _ _ hw hp fun objects' hw' hp' hheld' => ?_)))
    refine hw'.invoke (fun hc => by cases hc) fun all objects'' hcall hw'' => ⟨hw'', rfl, ?_, ?_⟩
    · have hlook := laws.pending_of_look (.getAllProperties props) objects'
        (.inr (.inr (.inl ⟨_, rfl⟩)))
      rw [hcall] at hlook
      exact hlook.trans hp'
    · rw [laws.getAllProperties_held _ _ _ _ hcall, hheld', hheld, hfront]
  refine .bind (.when (fun hd => ?_) fun hd => ?_)
  · refine hadd _ _ hw₁ hp₁ fun objects₂ hw₂ hp₂ hheld₂ => ?_
    rw [hheld₁] at hheld₂
    simp only [decide_eq_true_eq] at hd
    exact hrest objects₂ _ hw₂ hp₂ hheld₂ (by simp [wantedProperties, crlProperties, hd])
  · simp only [decide_eq_false_iff_not, not_not] at hd
    exact hrest objects₁ _ hw₁ hp₁ hheld₁ (by simp [wantedProperties, crlProperties, hd])

theorem fill_yields {minutes : Nat} {base : laws.Key → Option CaConfiguration}
    {cfg : CaConfiguration} (h : Working laws s₀ s) (hp : Holds laws s base c.name cfg)
    {ref : com.Ref} (hr : laws.subject ref = laws.key c.name) (hname : cfg.identifier = c.name)
    (hbytes : cfg.caCertificate = bytes) (hm : Str.parseU32 c.refreshMinutes = some minutes) :
    (fill c (toString ocspSigningFlags) crlProviderClsid ref).Yields s
      (fun _ s' => Working laws s₀ s' ∧ Holds laws s' base c.name (wanted c bytes minutes))
      fun _ s' => Stuck laws s₀ s' := by
  have hflags : Str.parseU32 (toString ocspSigningFlags) = some ocspSigningFlags := by decide
  refine .bind (set_yields h hp hr _ fun _ h hp => ?_)
  refine .bind (set_yields h hp hr _ fun _ h hp => ?_)
  refine .bind (set_yields h hp hr _ fun _ h hp => ?_)
  refine .bind (castInt_yields hflags (.bind (set_yields h hp hr _ fun _ h hp => ?_)))
  refine .bind ((createProperties_yields h hm).mono ?_ fun _ _ he => he)
  rintro all ⟨files, objects, stage⟩ ⟨h', -, hsame, rfl⟩
  have hp' : Holds laws ⟨files, objects, stage⟩ base c.name _ := hsame.trans hp
  refine .bind (set_yields h' hp' hr _ fun _ h hp => ?_)
  refine set_yields h hp hr _ fun _ h hp => ⟨h, ?_⟩
  have hcfg : ((((((cfg.set (.caConfig c.caConfig)).set
      (.signingCertificateTemplate c.template)).set (.hashAlgorithm "SHA256")).set
      (.signingFlags ocspSigningFlags)).set (.providerProperties (wantedProperties c minutes))).set
      (.providerClsid crlProviderClsid)) = wanted c bytes minutes := by
    subst hbytes
    simp only [CaConfiguration.set, wanted, hname]
  rwa [hcfg] at hp

variable (laws) in
theorem configure_yields {minutes : Nat} (hm : Str.parseU32 c.refreshMinutes = some minutes)
    (hstage : s.stage ∈ phases) :
    (configure c (toString ocspSigningFlags) crlProviderClsid bytes).Yields s
      (fun _ s' => s'.files = s.files ∧ laws.saved s'.objects =
        Function.update (laws.saved s.objects) (laws.key c.name) (some (wanted c bytes minutes)))
      fun _ s' => Stuck laws s s' := by
  have hstart : Working laws s s := ⟨rfl, rfl, hstage⟩
  refine .bind (hstart.invoke (fun hc => by cases hc) fun _ objects₁ _ h₁ => ?_)
  refine .bind (h₁.invoke (fun hc => by cases hc) fun _ objects₂ hcall h₂ => ?_)
  have hloaded : laws.pending objects₂ = laws.saved s.objects :=
    (laws.loads _ _ hcall).trans h₂.saved
  refine .bind (.assign (.bind ((recreate_yields (h₂.enter creating_mem) c.name).mono ?_
    fun _ _ he => he)))
  rintro ref s₃ ⟨h₃, -, href, cfg, hname, hbytes, hp₃⟩
  have h₃' : Working laws s { s₃ with stage := "setting revocation configuration properties" } :=
    h₃.enter setting_mem
  refine .bind (.assign (.bind ((fill_yields h₃' hp₃ href hname hbytes hm).mono ?_
    fun _ _ he => he)))
  rintro _ s₄ ⟨h₄, hp₄⟩
  refine .bind (.assign (.act (fun e s' hf => ?_) fun a s' hf => ?_))
  · obtain ⟨-, rfl⟩ := Prod.mk.inj hf
    exact ⟨h₄.files, .inr rfl, saving_mem⟩
  · obtain ⟨ha, rfl⟩ := Prod.mk.inj hf
    refine ⟨h₄.files, (laws.saves _ _ (Prod.ext ha rfl)).trans ?_⟩
    rw [Holds] at hp₄
    rw [← hloaded]
    exact hp₄

/-- How an error leaves things: the files as they were; the responder too, unless the save
failed; and if the certificate has been read the error names the phase. -/
structure Stopped (laws : com.Laws) (s : OcspHost com) (path e : String) (s' : OcspHost com) :
    Prop where
  files : s'.files = s.files
  saved : laws.saved s'.objects = laws.saved s.objects ∨
    ∃ reason, e = saving ++ " failed: " ++ reason
  named : s' = s ∨ (s.files path).isSome = true ∧ ∃ phase ∈ phases, ∃ reason,
    e = phase ++ " failed: " ++ reason

variable (laws s c) in
theorem effect_yields {minutes : Nat} (hm : Str.parseU32 c.refreshMinutes = some minutes) :
    (effect com (stage c).call).Yields s
      (fun _ s' => s'.files = s.files ∧ ∃ bytes, s.files c.caCertPath = some bytes ∧
        laws.saved s'.objects = Function.update (laws.saved s.objects) (laws.key c.name)
          (some (wanted c bytes minutes)))
      (Stopped laws s c.caCertPath) := by
  have hstart : ∀ e, Stopped laws s c.caCertPath e s := fun _ => ⟨rfl, .inl rfl, .inl rfl⟩
  have hscript : (stage c).script = script := rfl
  rw [effect, ofScript_stage hscript]
  refine .bind (.look hstart (.bind (.require (fun hthere => ?_) fun _ => hstart _)))
  refine .bind (.command hstart (fun _ _ => hstart _) ?_)
  intro bytes s' hread
  cases hf : s.files c.caCertPath with
  | none => simp [hf] at hthere
  | some found =>
      simp only [hf, Except.ok.injEq, Prod.mk.injEq] at hread
      obtain ⟨rfl, rfl⟩ := hread
      refine .bind (.assign (.bind (.attempt ((configure_yields laws hm
        List.mem_cons_self).mono ?_ ?_))))
      · rintro _ s' ⟨hfiles, hsaved⟩
        exact .pure ⟨hfiles, found, rfl, hsaved⟩
      · rintro e s' ⟨hfiles, hsaved, hstage⟩
        refine .bind (.get (.throw ⟨hfiles, ?_, .inr ⟨hthere, s'.stage, hstage, e, rfl⟩⟩))
        rcases hsaved with hsame | hlast
        · exact .inl hsame
        · exact .inr ⟨e, by rw [hlast]⟩

theorem parse_of_checked {ctx : Params} (hc : c.Checked ctx) :
    ∃ minutes, Str.parseU32 c.refreshMinutes = some minutes := by
  have hr := hc.refreshMinutes_ok
  unfold validRefresh at hr
  split at hr
  · exact ⟨_, ‹_›⟩
  · cases hr

/-- An accepted call: it has stopped, or the named configuration has been replaced. -/
theorem played_cases (laws : com.Laws) (misbound : ShellCall → Effect (OcspHost com) String)
    (hb : Binds (stage c).args) {minutes : Nat} (hm : Str.parseU32 c.refreshMinutes = some minutes)
    (s : Trial (OcspHost com)) :
    let played := playOn (bound misbound (effect com)) s (perform (stage c))
    (∃ e, played.1 = .error (.shell (.nonZeroExit 1 e)) ∧
      Stopped laws s.state c.caCertPath e played.2.state) ∨
    ∃ v bytes, played.1 = .ok v ∧ s.state.files c.caCertPath = some bytes ∧
      played.2.state.files = s.state.files ∧ laws.saved played.2.state.objects =
        Function.update (laws.saved s.state.objects) (laws.key c.name)
          (some (wanted c bytes minutes)) := by
  intro played
  have hplayed : Played (stage c) _ _ played := played_bound hb (effect_yields laws s.state c hm)
  rcases hplayed with ⟨out, hout, hfiles, bytes, hfile, hsaved⟩ | ⟨e, he, hleft⟩
  · exact .inr ⟨_, bytes, hout, hfile, hfiles, hsaved⟩
  · exact .inl ⟨e, he, hleft⟩

/-- Whatever fails in whichever call, if no forwarded value begins with a dash: the
parameters are rejected and nothing happens; or the command stops, the responder keeping
its configurations unless the save failed, and an error that comes after the certificate was
read names the phase; or the named configuration is what was asked for and every other one
is as it was, and from then on running the command again to its end changes none. -/
theorem configure_revocation_whole (com : OcspCom) (laws : com.Laws)
    (misbound : ShellCall → Effect (OcspHost com) String) (ctx : Params)
    (hb : Binds (forwarded "ocsp.configure_revocation" ctx)) (s : Trial (OcspHost com)) :
    let played := playOn (bound misbound (effect com)) s (execute ctx)
    (∃ e, e.isParam = true ∧ played = (.error e, s)) ∨
    ∃ c minutes, c.Checked ctx ∧ Str.parseU32 c.refreshMinutes = some minutes ∧
      ((∃ e, played.1 = .error (.shell (.nonZeroExit 1 e)) ∧
          Stopped laws s.state c.caCertPath e played.2.state) ∨
        ∃ v bytes, played.1 = .ok v ∧ s.state.files c.caCertPath = some bytes ∧
          played.2.state.files = s.state.files ∧
          laws.saved played.2.state.objects = Function.update (laws.saved s.state.objects)
            (laws.key c.name) (some (wanted c bytes minutes)) ∧
          ∀ again : Trial (OcspHost com),
            laws.saved again.state.objects = laws.saved played.2.state.objects →
            again.state.files c.caCertPath = some bytes →
            let replayed := playOn (bound misbound (effect com)) again (execute ctx)
            replayed.1.isOk = true →
              laws.saved replayed.2.state.objects = laws.saved again.state.objects) := by
  have hstaged := (staged ctx).and_binds (OcspConfigureRevocation.binds ctx)
  generalize execute ctx = p at hstaged
  intro played
  cases hstaged with
  | rejected he => exact .inl ⟨_, he, rfl⟩
  | perform hstage =>
      obtain ⟨⟨c, hc, rfl⟩, hlike⟩ := hstage
      have hargs : Binds (stage c).args := hlike.mpr hb
      obtain ⟨minutes, hm⟩ := parse_of_checked hc
      refine .inr ⟨c, minutes, hc, hm, ?_⟩
      rcases played_cases laws misbound hargs hm s with
        he | ⟨v, bytes, hv, hfile, hfiles, hsaved⟩
      · exact .inl he
      · refine .inr ⟨v, bytes, hv, hfile, hfiles, hsaved, fun again hagain hread => ?_⟩
        intro replayed hok
        rcases played_cases laws misbound hargs hm again with
          ⟨e, he, -⟩ | ⟨v', bytes', -, hfile', -, hsaved'⟩
        · rw [show replayed.1 = _ from he] at hok
          cases hok
        · obtain rfl : bytes = bytes' := Option.some.inj (hread.symm.trans hfile')
          have hsame : laws.saved replayed.2.state.objects = _ := hsaved'
          rw [hsame, hagain, hsaved, Function.update_idem]

/-! ## A responder -/

/-- A responder's configurations, those of its object, and the one collection of properties. -/
structure LabObjects where
  known : List String
  saved : String → Option CaConfiguration
  pending : String → Option CaConfiguration
  props : List (String × ProviderProperty)

def blank : CaConfiguration := ⟨"", [], "", "", "", 0, [], ""⟩

/-- References to configurations are their identifiers, and the empty text is the collection. -/
def labCall : (c : ComCall String) → LabObjects → Except String c.Reply × LabObjects
  | .newAdmin, o => (.ok (), o)
  | .getConfiguration, o => (.ok (), { o with pending := o.saved })
  | .identifiers, o => (.ok (o.known.filter fun name => (o.pending name).isSome), o)
  | .deleteCaConfiguration name, o =>
      (.ok (), { o with pending := Function.update o.pending name none })
  | .createCaConfiguration name certificate, o =>
      if (o.pending name).isSome then
        (.error "Cannot create a file when that file already exists.", o)
      else (.ok name, { o with
        known := name :: o.known
        pending := Function.update o.pending name
          (some { blank with identifier := name, caCertificate := certificate }) })
  | .setProperty cfg property, o =>
      (.ok (), { o with
        pending := Function.update o.pending cfg ((o.pending cfg).map (·.set property)) })
  | .newProperties, o => (.ok "", { o with props := [] })
  | .createProperty _ name value, o => (.ok (), { o with props := o.props ++ [(name, value)] })
  | .getAllProperties _, o => (.ok o.props, o)
  | .setConfiguration, o => (.ok (), { o with saved := o.pending })

def labCom : OcspCom := ⟨LabObjects, String, labCall, fun name name' => name == name'⟩

theorem labCall_saved (c : ComCall String) (o : LabObjects) (h : c ≠ .setConfiguration) :
    (labCall c o).2.saved = o.saved := by
  cases c with
  | createCaConfiguration name certificate => simp only [labCall]; split <;> rfl
  | setConfiguration => exact absurd rfl h
  | _ => rfl

theorem labCall_pending (c : ComCall String) (o : LabObjects) (h : c = .identifiers ∨
    c = .newProperties ∨ (∃ props, c = .getAllProperties props) ∨
    (∃ props name value, c = .createProperty props name value)) :
    (labCall c o).2.pending = o.pending := by
  rcases h with rfl | rfl | ⟨_, rfl⟩ | ⟨_, _, _, rfl⟩ <;> rfl

theorem labCall_creates (name : String) (certificate : List UInt8) (o : LabObjects) (ref : String)
    (o' : LabObjects) (h : labCall (.createCaConfiguration name certificate) o = (.ok ref, o')) :
    ref = name ∧ ∃ cfg : CaConfiguration, cfg.identifier = name ∧ cfg.caCertificate = certificate ∧
      o'.pending = Function.update o.pending name (some cfg) := by
  simp only [labCall] at h
  split at h
  · cases h
  · cases h
    exact ⟨rfl, _, rfl, rfl, rfl⟩

theorem labCall_loads (o o' : LabObjects) (h : labCall .getConfiguration o = (.ok (), o')) :
    o'.pending = o'.saved := by
  cases h
  rfl

theorem labCall_deletes (name : String) (o o' : LabObjects)
    (h : labCall (.deleteCaConfiguration name) o = (.ok (), o')) :
    o'.pending = Function.update o.pending name none := by
  cases h
  rfl

theorem labCall_sets (ref : String) (property : CfgProperty) (o o' : LabObjects)
    (h : labCall (.setProperty ref property) o = (.ok (), o')) :
    o'.pending = Function.update o.pending ref ((o.pending ref).map (·.set property)) := by
  cases h
  rfl

theorem labCall_newProperties (o : LabObjects) (props : String) (o' : LabObjects)
    (h : labCall .newProperties o = (.ok props, o')) : o'.props = [] := by
  cases h
  rfl

theorem labCall_createProperty (props name : String) (value : ProviderProperty)
    (o o' : LabObjects) (h : labCall (.createProperty props name value) o = (.ok (), o')) :
    o'.props = o.props ++ [(name, value)] := by
  cases h
  rfl

theorem labCall_getAllProperties (props : String) (o : LabObjects)
    (all : List (String × ProviderProperty)) (o' : LabObjects)
    (h : labCall (.getAllProperties props) o = (.ok all, o')) : all = o.props := by
  cases h
  rfl

theorem labCall_saves (o o' : LabObjects) (h : labCall .setConfiguration o = (.ok (), o')) :
    o'.saved = o.pending := by
  cases h
  rfl

def labLaws : labCom.Laws where
  Key := String
  key := id
  saved := LabObjects.saved
  pending := LabObjects.pending
  subject := id
  held o _ := o.props
  saved_of_call := labCall_saved
  pending_of_look := labCall_pending
  loads := labCall_loads
  deletes := labCall_deletes
  creates := labCall_creates
  sets := labCall_sets
  newProperties_held := labCall_newProperties
  createProperty_held := labCall_createProperty
  getAllProperties_held := labCall_getAllProperties
  saves := labCall_saves

/-- The CA's certificate is there, and an older configuration of the name. -/
def labHost : OcspHost labCom where
  files path := if path = "C:\\CertEnroll\\ca.crt" then some [48] else none
  objects := ⟨["Example"], fun name => if name = "Example" then some blank else none,
    fun _ => none, []⟩
  stage := ""

/-- The configuration that is asked for. -/
def labConfig : Config :=
  ⟨"Example", "ca01\\Example Issuing CA", "C:\\CertEnroll\\ca.crt", "OCSPResponseSigning", "15",
    "http://a/1.crl", ""⟩

/-- An older configuration is replaced by the one that is asked for. -/
theorem configure_revocation_whole_lab :
    let played := playOn (bound (fun _ => throw "") (effect labCom)) ⟨labHost, []⟩
      (execute (revocationParams "http://a/1.crl"))
    played.2.state.objects.saved "Example" = some (wanted labConfig [48] 15) := by
  intro played
  have he : execute (revocationParams "http://a/1.crl") = perform (stage labConfig) := by rfl
  have hscript : (stage labConfig).script = script := rfl
  have hok : played.1.isOk = true := by
    simp only [played]
    rw [he, playOn_perform, serveScripts, bound, if_pos (by decide), effect,
      ofScript_stage hscript]
    rfl
  rcases configure_revocation_whole labCom labLaws (fun _ => throw "")
      (revocationParams "http://a/1.crl") (by decide) ⟨labHost, []⟩ with
    ⟨e, -, hplayed⟩ | ⟨c, minutes, hc, hm, ⟨e, he, -⟩ | ⟨v, bytes, -, hfile, -, hsaved, -⟩⟩
  · rw [show played = _ from hplayed] at hok
    cases hok
  · rw [show played.1 = _ from he] at hok
    cases hok
  · have hname : labConfig.name = c.name := Option.some.inj hc.name_eq
    have hca : labConfig.caConfig = c.caConfig := Option.some.inj hc.caConfig_eq
    have hpath : labConfig.caCertPath = c.caCertPath := Option.some.inj hc.caCertPath_eq
    have hbase : labConfig.baseCrlUrls = c.baseCrlUrls := Option.some.inj hc.baseCrlUrls_eq
    obtain rfl : c = labConfig := by
      cases c
      simp only [Config.mk.injEq, labConfig] at *
      exact ⟨hname.symm, hca.symm, hpath.symm, hc.template_eq, hc.refreshMinutes_eq, hbase.symm,
        hc.deltaCrlUrls_eq⟩
    obtain rfl : 15 = minutes := Option.some.inj hm
    obtain rfl : [48] = bytes := Option.some.inj hfile
    rw [show played.2.state.objects.saved = _ from hsaved]
    exact Function.update_self _ _ _

end OcspConfigureRevocation

end PkiExecutor
