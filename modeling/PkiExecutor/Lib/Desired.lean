/-
# `PkiExecutor.Lib.Desired` — scripts that bring resources to a value

A script that configures something has a demand: values for some resources.  What becomes
of a resource is a matter of its manner: it may be filled only where there is nothing, set,
or taken away and put there anew, and some the script only tries to bring to their value,
without looking whether it could.  At its end a script may restart a service, which then
goes by what is stored.  It can break off anywhere.

`x.Brings d` says what every run of `x` does about the demand `d`, complete or not; there
is a rule for each kind of command, and one for a sequence.  `Attempts` is about a plan
of such scripts, each attempted as often as one likes, in any order, and broken off at
will: if the last attempt at each was complete then what is stored does not depend on the
history, provided no two of them ask for different values.
-/
import Mathlib.Logic.Function.Basic
import PkiExecutor.Lib.Effects

namespace PkiExecutor

variable {ρ ν α β ι : Type}

/-- The resources, and the values of them that the service goes by. -/
structure Stock (ρ ν : Type) where
  stored : ρ → Option ν
  inForce : ρ → Option ν

/-- How a resource is brought to a value. -/
structure Manner (ν : Type) where
  /-- what becomes of it; the second time nothing does -/
  aim : Option ν → ν → Option ν
  aim_aim : ∀ old x, aim (aim old x) x = aim old x
  /-- it is taken away first, so it does not matter what it was -/
  vacates : Bool
  aim_none : vacates = true → ∀ old x, aim none x = aim old x
  /-- a script that succeeds has seen to it -/
  checked : Bool

namespace Manner

theorem or_or (old : Option ν) (x : ν) : (old.or (some x)).or (some x) = old.or (some x) := by
  cases old <;> rfl

/-- Only where there is nothing. -/
def fill : Manner ν where
  aim old x := old.or (some x)
  aim_aim := or_or
  vacates := false
  aim_none h := absurd h Bool.false_ne_true
  checked := true

/-- To what is asked for. -/
def set : Manner ν where
  aim _ x := some x
  aim_aim _ _ := rfl
  vacates := false
  aim_none _ _ _ := rfl
  checked := true

/-- The same, but it is taken away first. -/
def replace : Manner ν := { set with vacates := true, aim_none := fun _ _ _ => rfl }

/-- It is set if that can be done. -/
def trySet : Manner ν := { set with checked := false }

/-- It is taken away if that can be done. -/
def tryRemove : Manner ν where
  aim _ _ := none
  aim_aim _ _ := rfl
  vacates := false
  aim_none _ _ _ := rfl
  checked := false

end Manner

/-- The values that are wanted, and whether the service is made to read what is stored. -/
structure Demand (ρ ν : Type) where
  wants : ρ → Option ν
  restarts : Bool

namespace Demand

/-- No resource is wanted. -/
def nothing : Demand ρ ν := ⟨fun _ => none, false⟩

theorem restarts_ite {p : Prop} [Decidable p] {d : Demand ρ ν} (h : d.restarts = false) :
    (if p then d else .nothing).restarts = false := by
  split
  · exact h
  · rfl

/-- One resource is wanted. -/
def single [DecidableEq ρ] (r : ρ) (x : ν) : Demand ρ ν :=
  ⟨fun q => if q = r then some x else none, false⟩

theorem of_single [DecidableEq ρ] {r q : ρ} {x y : ν} (h : (single r x).wants q = some y) :
    q = r ∧ x = y := by
  simpa [single] using h

/-- What either of two wants. -/
def and (d e : Demand ρ ν) : Demand ρ ν :=
  ⟨fun r => (d.wants r).or (e.wants r), d.restarts || e.restarts⟩

/-- No resource is in both. -/
def Apart (d e : Demand ρ ν) : Prop := ∀ r, d.wants r = none ∨ e.wants r = none

end Demand

/-! ## One run -/

section Runs

variable (manner : ρ → Manner ν)

/-- A resource on its way to a value. -/
def Manner.OnTheWay (m : Manner ν) (x : ν) (old new : Option ν) : Prop :=
  new = old ∨ new = m.aim old x ∨ m.vacates = true ∧ new = none

/-- What a run does about a demand, complete or not.  While a service is restarted nothing is
said of what it goes by. -/
structure Moves (d : Demand ρ ν) (complete : Bool) (s s' : Stock ρ ν) : Prop where
  others : ∀ r, d.wants r = none → s'.stored r = s.stored r
  wanted : ∀ r x, d.wants r = some x → (manner r).OnTheWay x (s.stored r) (s'.stored r)
  done : complete = true → ∀ r x, d.wants r = some x → (manner r).checked = true →
    s'.stored r = (manner r).aim (s.stored r) x
  inForce : d.restarts = false → s'.inForce = s.inForce
  restarted : complete = true → d.restarts = true → s'.inForce = s'.stored

variable {manner} {d e : Demand ρ ν} {complete : Bool} {s s' s'' : Stock ρ ν}

theorem Moves.refl (d : Demand ρ ν) (s : Stock ρ ν) : Moves manner d false s s where
  others _ _ := rfl
  wanted _ _ _ := .inl rfl
  done h := by cases h
  inForce _ := rfl
  restarted h := by cases h

theorem Moves.nothing (complete : Bool) (s : Stock ρ ν) : Moves manner .nothing complete s s where
  others _ _ := rfl
  wanted _ _ h := by cases h
  done _ _ _ h := by cases h
  inForce _ := rfl
  restarted _ h := by cases h

theorem Moves.of_complete (h : Moves manner d true s s') : Moves manner d complete s s' :=
  ⟨h.others, h.wanted, fun _ => h.done rfl, h.inForce, fun _ => h.restarted rfl⟩

/-- What has been done of the first of two. -/
theorem Moves.first (h : Moves manner d false s s') (hr : d.restarts = false) :
    Moves manner (d.and e) false s s' where
  others r hn := h.others r (Option.or_eq_none_iff.mp hn).1
  wanted r x hx := by
    cases hd : d.wants r with
    | none => exact .inl (h.others r hd)
    | some y =>
        obtain rfl : y = x := by simpa [Demand.and, hd] using hx
        exact h.wanted r y hd
  done hf := by cases hf
  inForce _ := h.inForce hr
  restarted hf := by cases hf

/-- The first of two, which does not touch the service, and then the second. -/
theorem Moves.second (h : Moves manner d true s s') (hr : d.restarts = false) (ha : d.Apart e)
    (h' : Moves manner e complete s' s'') : Moves manner (d.and e) complete s s'' := by
  -- what is wanted is wanted by one of them, and the other leaves it alone
  have hcases : ∀ r x, (d.and e).wants r = some x →
      d.wants r = some x ∧ s''.stored r = s'.stored r ∨
        e.wants r = some x ∧ s'.stored r = s.stored r := by
    intro r x hx
    cases hd : d.wants r with
    | none => exact .inr ⟨by simpa [Demand.and, hd] using hx, h.others r hd⟩
    | some y =>
        obtain rfl : y = x := by simpa [Demand.and, hd] using hx
        rcases ha r with hn | hn
        · rw [hd] at hn
          cases hn
        · exact .inl ⟨rfl, h'.others r hn⟩
  constructor
  · intro r hn
    obtain ⟨hd, he⟩ := Option.or_eq_none_iff.mp hn
    exact (h'.others r he).trans (h.others r hd)
  · intro r x hx
    rcases hcases r x hx with ⟨hd, hsame⟩ | ⟨he, hsame⟩
    · rw [hsame]
      exact h.wanted r x hd
    · rw [← hsame]
      exact h'.wanted r x he
  · intro hc r x hx hm
    rcases hcases r x hx with ⟨hd, hsame⟩ | ⟨he, hsame⟩
    · rw [hsame]
      exact h.done rfl r x hd hm
    · rw [← hsame]
      exact h'.done hc r x he hm
  · intro hn
    obtain ⟨-, he⟩ := Bool.or_eq_false_iff.mp hn
    exact (h'.inForce he).trans (h.inForce hr)
  · intro hc he
    exact h'.restarted hc (by simpa [Demand.and, hr] using he)

variable [DecidableEq ρ]

/-- One resource gets another value, or none. -/
def Stock.put (s : Stock ρ ν) (r : ρ) (x : Option ν) : Stock ρ ν :=
  { s with stored := Function.update s.stored r x }

theorem Stock.put_stored (s : Stock ρ ν) (r : ρ) (x : Option ν) : (s.put r x).stored r = x :=
  Function.update_self ..

theorem Stock.put_self (s : Stock ρ ν) (r : ρ) : s.put r (s.stored r) = s := by
  rw [Stock.put, Function.update_eq_self]

theorem Stock.put_put (s : Stock ρ ν) (r : ρ) (x y : Option ν) :
    (s.put r x).put r y = s.put r y := by
  rw [Stock.put, Stock.put, Stock.put, Function.update_idem]

theorem Moves.single {r : ρ} {x : ν} {new : Option ν}
    (hway : (manner r).OnTheWay x (s.stored r) new)
    (hdone : complete = true → (manner r).checked = true → new = (manner r).aim (s.stored r) x) :
    Moves manner (.single r x) complete s (s.put r new) where
  others q hq := by
    have hne : q ≠ r := by
      rintro rfl
      simp [Demand.single] at hq
    exact Function.update_of_ne hne _ _
  wanted q y hq := by
    obtain ⟨rfl, rfl⟩ := Demand.of_single hq
    rw [Stock.put_stored]
    exact hway
  done hc q y hq hm := by
    obtain ⟨rfl, rfl⟩ := Demand.of_single hq
    rw [Stock.put_stored]
    exact hdone hc hm
  inForce _ := rfl
  restarted _ h := by cases h

theorem Moves.aimed (r : ρ) (x : ν) (s : Stock ρ ν) :
    Moves manner (.single r x) complete s (s.put r ((manner r).aim (s.stored r) x)) :=
  .single (.inr (.inl rfl)) fun _ _ => rfl

theorem Moves.put {r : ρ} {x : ν} (h : manner r = .set) :
    Moves manner (.single r x) complete s (s.put r (some x)) := by
  have haimed : Moves manner (.single r x) complete s _ := .aimed r x s
  rwa [h] at haimed

/-- What is only tried is left alone, or comes to its value. -/
theorem Moves.tried {r : ρ} {x : ν} (h : (manner r).checked = false) :
    Moves manner (.single r x) complete s s := by
  have hself : Moves manner (.single r x) complete s (s.put r (s.stored r)) :=
    .single (.inl rfl) fun _ hc => absurd (hc.symm.trans h) (by decide)
  rwa [Stock.put_self] at hself

end Runs

namespace Effect

variable {manner : ρ → Manner ν} {d e : Demand ρ ν}

/-- Every run of a script moves the resources as the demand says. -/
def Brings (manner : ρ → Manner ν) (x : Effect (Stock ρ ν) α) (d : Demand ρ ν) : Prop :=
  ∀ s, x.Yields s (fun _ s' => Moves manner d true s s') fun _ s' => Moves manner d false s s'

/-- The service is stopped, and reads what is stored when it is started again. -/
def restart : Effect (Stock ρ ν) Unit := do
  change fun s => { s with inForce := fun _ => none }
  change fun s => { s with inForce := s.stored }

/-- A command that fails where there is something already. -/
def create [DecidableEq ρ] (r : ρ) (x : ν) (ok : Stock ρ ν → Bool) (message : String) :
    Effect (Stock ρ ν) Unit :=
  command fun s =>
    if (s.stored r).isSome || !ok s then .error message else .ok ((), s.put r (some x))

theorem create_yields [DecidableEq ρ] {r : ρ} {x : ν} {ok : Stock ρ ν → Bool} {message : String}
    {s : Stock ρ ν} {Q : Unit → Stock ρ ν → Prop} {E : String → Stock ρ ν → Prop}
    (hfault : ∀ err, E err s) (hput : s.stored r = none → Q () (s.put r (some x))) :
    (create r x ok message).Yields s Q E := by
  refine .command hfault (fun err _ => hfault err) ?_
  intro a s' hf
  split at hf
  · cases hf
  · rename_i hnot
    cases hf
    rw [Bool.or_eq_true, not_or] at hnot
    exact hput (Option.not_isSome_iff_eq_none.mp hnot.1)

namespace Brings

theorem pure (a : α) : Brings manner (pure a : Effect (Stock ρ ν) α) .nothing :=
  fun s => .pure (.nothing true s)

theorem throw (err : String) (d : Demand ρ ν) :
    Brings manner (throw err : Effect (Stock ρ ν) α) d := fun s => .throw (.refl d s)

theorem require (c : Bool) (err : String) :
    Brings manner (Effect.require c err : Effect (Stock ρ ν) Unit) .nothing :=
  fun s => .require (fun _ => .nothing true s) fun _ => .nothing false s

theorem look (f : Stock ρ ν → α) : Brings manner (look f) .nothing :=
  fun s => .look (fun _ => .nothing false s) (.nothing true s)

theorem seq {x : Effect (Stock ρ ν) α} {f : α → Effect (Stock ρ ν) β} (hx : Brings manner x d)
    (hr : d.restarts = false) (ha : d.Apart e) (hf : ∀ a, Brings manner (f a) e) :
    Brings manner (x >>= f) (d.and e) := by
  intro s
  refine .bind ((hx s).mono (fun a s' h => ?_) fun _ s' h => h.first hr)
  exact (hf a s').mono (fun _ _ h' => h.second hr ha h') fun _ _ h' => h.second hr ha h'

theorem after {x : Effect (Stock ρ ν) α} {f : α → Effect (Stock ρ ν) β}
    (hx : Brings manner x .nothing) (hf : ∀ a, Brings manner (f a) e) :
    Brings manner (x >>= f) e := by
  have h := hx.seq rfl (fun _ => .inl rfl) hf
  simpa [Demand.and, Demand.nothing] using h

theorem before {x : Effect (Stock ρ ν) α} {f : α → Effect (Stock ρ ν) β} (hx : Brings manner x d)
    (hr : d.restarts = false) (hf : ∀ a, Brings manner (f a) .nothing) :
    Brings manner (x >>= f) d := by
  have h := hx.seq hr (fun _ => .inr rfl) hf
  simpa [Demand.and, Demand.nothing] using h

theorem when {p : Prop} [Decidable p] {x : Effect (Stock ρ ν) Unit}
    (h : p → Brings manner x d) :
    Brings manner (Effect.when (decide p) x) (if p then d else .nothing) := by
  by_cases hp : p
  · rw [decide_eq_true hp, if_pos hp]
    exact h hp
  · rw [decide_eq_false hp, if_neg hp]
    exact pure ()

theorem restart : Brings manner (Effect.restart : Effect (Stock ρ ν) Unit)
    ⟨fun _ => none, true⟩ := by
  intro s
  have hstopped : Moves manner ⟨fun _ => none, true⟩ false s { s with inForce := fun _ => none } :=
    ⟨fun _ _ => rfl, fun _ _ h => (by cases h), fun h => (by cases h), fun h => (by cases h),
      fun h => (by cases h)⟩
  refine .bind (.change (fun _ => .refl _ s) (.change (fun _ => hstopped) ?_))
  exact ⟨fun _ _ => rfl, fun _ _ h => (by cases h), fun _ _ _ h => (by cases h),
    fun h => (by cases h), fun _ _ => rfl⟩

variable [DecidableEq ρ] {r : ρ} {x : ν}

theorem put (h : manner r = .set) :
    Brings manner (change fun s : Stock ρ ν => s.put r (some x)) (.single r x) :=
  fun s => .change (fun _ => .refl _ s) (.put h)

theorem aimed {f : Stock ρ ν → Stock ρ ν}
    (h : ∀ s, f s = s.put r ((manner r).aim (s.stored r) x)) :
    Brings manner (change f) (.single r x) := by
  refine fun s => .change (fun _ => .refl _ s) ?_
  rw [h]
  exact .aimed r x s

theorem tried {f : Stock ρ ν → Stock ρ ν} (hc : (manner r).checked = false)
    (h : ∀ s, f s = s.put r ((manner r).aim (s.stored r) x)) :
    Brings manner (change f).silently (.single r x) := by
  refine fun s => .silently (.change (fun _ => .tried hc) ?_)
  rw [h]
  exact .aimed r x s

theorem put_put {q : ρ} {y : ν} (hr : manner r = .set) (hq : manner q = .set) (hne : q ≠ r) :
    Brings manner (change fun s : Stock ρ ν => (s.put r (some x)).put q (some y))
      ((Demand.single r x).and (.single q y)) := by
  refine fun s => .change (fun _ => .refl _ s) ?_
  refine Moves.second (.put hr) rfl (fun p => ?_) (.put hq)
  by_cases hp : p = r
  · subst hp
    exact .inr (if_neg hne.symm)
  · exact .inl (if_neg hp)

theorem fill (h : manner r = .fill) {there : Effect (Stock ρ ν) Bool}
    (hthere : ∀ s, there.Yields s
      (fun found s' => s' = s ∧ (found = true → (s.stored r).isSome = true)) fun _ s' => s' = s)
    (ok : Stock ρ ν → Bool) (message : String) :
    Brings manner (do
      let found ← there
      Effect.when (!found) (create r x ok message)) (.single r x) := by
  intro s
  refine .bind ((hthere s).mono ?_ ?_)
  · rintro found s' ⟨rfl, hfound⟩
    refine .when (fun _ => create_yields (fun _ => .refl _ _) fun hnone => ?_) fun hf => ?_
    · have haim : some x = (manner r).aim (s'.stored r) x := by
        rw [h, hnone]
        rfl
      exact .single (.inr (.inl haim)) fun _ _ => haim
    · have haim : s'.stored r = (manner r).aim (s'.stored r) x := by
        obtain ⟨y, hy⟩ := Option.isSome_iff_exists.mp (hfound (by simpa using hf))
        rw [h, hy]
        rfl
      have hmoves : Moves manner (.single r x) true s' (s'.put r (s'.stored r)) :=
        .single (.inl rfl) fun _ _ => haim
      rwa [Stock.put_self] at hmoves
  · rintro _ _ rfl
    exact .refl _ _

theorem replace (h : manner r = .replace) {there : Effect (Stock ρ ν) Bool}
    (hthere : ∀ s, there.Yields s (fun _ s' => s' = s) fun _ s' => s' = s) (message : String) :
    Brings manner (do
      let found ← there
      Effect.when found (change fun s => s.put r none)
      create r x (fun _ => true) message) (.single r x) := by
  intro s
  have hadd : ∀ s', s' = s ∨ s' = s.put r none →
      (create r x (fun _ => true) message).Yields s'
        (fun _ s'' => Moves manner (.single r x) true s s'')
        fun _ s'' => Moves manner (.single r x) false s s'' := by
    have haim : some x = (manner r).aim (s.stored r) x := by rw [h]; rfl
    have hput : Moves manner (.single r x) true s (s.put r (some x)) :=
      .single (.inr (.inl haim)) fun _ _ => haim
    have hvacates : (manner r).vacates = true := by rw [h]; rfl
    rintro s' (rfl | rfl)
    · exact create_yields (fun _ => .refl _ _) fun _ => hput
    · refine create_yields (fun _ => .single (.inr (.inr ⟨hvacates, rfl⟩)) fun hc => by
        cases hc) ?_
      intro _
      rw [Stock.put_put]
      exact hput
  refine .bind ((hthere s).mono ?_ ?_)
  · rintro found _ rfl
    refine .bind (.when (fun _ => ?_) fun _ => hadd _ (.inl rfl))
    exact .change (fun _ => .refl _ _) (hadd _ (.inr rfl))
  · rintro _ _ rfl
    exact .refl _ _

end Brings

end Effect

/-! ## Attempts at a plan -/

/-- What has been attempted, the last attempt first, and whether it was complete. -/
inductive Attempts (runs : ι → Bool → Stock ρ ν → Stock ρ ν → Prop) (s₀ : Stock ρ ν) :
    List (ι × Bool) → Stock ρ ν → Prop
  | start : Attempts runs s₀ [] s₀
  | attempt {h : List (ι × Bool)} {s s' : Stock ρ ν} {i : ι} {complete : Bool} :
      Attempts runs s₀ h s → runs i complete s s' → Attempts runs s₀ ((i, complete) :: h) s'

/-- No two of them want different values of a resource, or one that is taken away first. -/
def Compatible (manner : ρ → Manner ν) (demand : ι → Demand ρ ν) (plan : List ι) : Prop :=
  ∀ i ∈ plan, ∀ j ∈ plan, i ≠ j → ∀ r x y, (demand i).wants r = some x →
    (demand j).wants r = some y → x = y ∧ (manner r).vacates = false

namespace Attempts

variable {manner : ρ → Manner ν} {demand : ι → Demand ρ ν} {plan : List ι}
  {runs : ι → Bool → Stock ρ ν → Stock ρ ν → Prop} {s₀ s : Stock ρ ν} {h : List (ι × Bool)}

theorem aim_onTheWay {m : Manner ν} {x : ν} {old new : Option ν} (hw : m.OnTheWay x old new) :
    m.aim new x = m.aim old x := by
  rcases hw with rfl | rfl | ⟨hv, rfl⟩
  · rfl
  · exact m.aim_aim old x
  · exact m.aim_none hv old x

theorem onTheWay_trans {m : Manner ν} {x : ν} {old mid new : Option ν}
    (hw : m.OnTheWay x old mid) (hw' : m.OnTheWay x mid new) : m.OnTheWay x old new := by
  rcases hw' with rfl | rfl | ⟨hv, rfl⟩
  · exact hw
  · exact .inr (.inl (aim_onTheWay hw))
  · exact .inr (.inr ⟨hv, rfl⟩)

variable (hruns : ∀ i ∈ plan, ∀ complete s s', runs i complete s s' →
  Moves manner (demand i) complete s s')

include hruns in
theorem unwanted (ha : Attempts runs s₀ h s) (hplan : ∀ a ∈ h, a.1 ∈ plan) {r : ρ}
    (hr : ∀ i ∈ plan, (demand i).wants r = none) : s.stored r = s₀.stored r := by
  induction ha with
  | start => rfl
  | attempt _ hrun ih =>
      rw [List.forall_mem_cons] at hplan
      exact ((hruns _ hplan.1 _ _ _ hrun).others r (hr _ hplan.1)).trans (ih hplan.2)

include hruns in
theorem wanted (hc : Compatible manner demand plan) (ha : Attempts runs s₀ h s)
    (hplan : ∀ a ∈ h, a.1 ∈ plan) {i : ι} (hi : i ∈ plan) {r : ρ} {x : ν}
    (hx : (demand i).wants r = some x) :
    (manner r).OnTheWay x (s₀.stored r) (s.stored r) := by
  induction ha with
  | start => exact .inl rfl
  | @attempt _ _ _ j _ _ hrun ih =>
      rw [List.forall_mem_cons] at hplan
      have hmoves := hruns _ hplan.1 _ _ _ hrun
      cases hy : (demand j).wants r with
      | none =>
          rw [hmoves.others r hy]
          exact ih hplan.2
      | some y =>
          obtain rfl : x = y := by
            by_cases hij : i = j
            · subst hij
              exact Option.some.inj (hx.symm.trans hy)
            · exact (hc i hi j hplan.1 hij r x y hx hy).1
          exact onTheWay_trans (ih hplan.2) (hmoves.wanted r x hy)

include hruns in
/-- Another attempt leaves alone what has come to its value. -/
theorem kept (hc : Compatible manner demand plan) {i j : ι} (hi : i ∈ plan) (hj : j ∈ plan)
    (hij : i ≠ j) {complete : Bool} {t : Stock ρ ν} (hrun : runs j complete s t) {r : ρ} {x : ν}
    {old : Option ν} (hx : (demand i).wants r = some x)
    (hstored : s.stored r = (manner r).aim old x) : t.stored r = s.stored r := by
  have hmoves := hruns j hj _ _ _ hrun
  cases hy : (demand j).wants r with
  | none => exact hmoves.others r hy
  | some y =>
      obtain ⟨rfl, hstays⟩ := hc i hi j hj hij r x y hx hy
      rcases hmoves.wanted r x hy with hs | hs | ⟨hv, -⟩
      · exact hs
      · rw [hs, hstored, Manner.aim_aim]
      · rw [hstays] at hv
        cases hv

variable [BEq ι] [LawfulBEq ι]

theorem lookup_cons_ne {i j : ι} (hij : i ≠ j) (complete : Bool) (h : List (ι × Bool)) :
    ((j, complete) :: h).lookup i = h.lookup i := by
  rw [List.lookup_cons, beq_eq_false_iff_ne.mpr hij]

include hruns in
/-- Once an attempt is complete what it has seen to is there, and other attempts leave it so. -/
theorem complete (hc : Compatible manner demand plan) (ha : Attempts runs s₀ h s)
    (hplan : ∀ a ∈ h, a.1 ∈ plan) {i : ι} (hi : i ∈ plan) (hlast : h.lookup i = some true)
    {r : ρ} {x : ν} (hx : (demand i).wants r = some x) (hm : (manner r).checked = true) :
    s.stored r = (manner r).aim (s₀.stored r) x := by
  induction ha with
  | start => cases hlast
  | @attempt _ s t j complete ha hrun ih =>
      rw [List.forall_mem_cons] at hplan
      by_cases hij : i = j
      · -- the attempt itself
        subst hij
        obtain rfl : complete = true := by simpa using hlast
        rw [(hruns i hi _ _ _ hrun).done rfl r x hx hm]
        exact aim_onTheWay (wanted hruns hc ha hplan.2 hi hx)
      · rw [lookup_cons_ne hij] at hlast
        have hstored := ih hplan.2 hlast
        exact (kept hruns hc hi hplan.1 hij hrun hx hstored).trans hstored

include hruns in
/-- If the last attempt at each that restarts the service was complete, the service goes by
what one of them has seen to. -/
theorem inForce (hc : Compatible manner demand plan) (ha : Attempts runs s₀ h s)
    (hplan : ∀ a ∈ h, a.1 ∈ plan)
    (hlast : ∀ a ∈ h, (demand a.1).restarts = true → h.lookup a.1 = some true)
    {i : ι} (hi : i ∈ plan) (hr : (demand i).restarts = true) (hdone : h.lookup i = some true)
    {r : ρ} {x : ν} (hx : (demand i).wants r = some x) (hm : (manner r).checked = true) :
    s.inForce r = s.stored r := by
  induction ha with
  | start => cases hdone
  | @attempt h s t j complete ha hrun ih =>
      rw [List.forall_mem_cons] at hplan
      have hmoves := hruns j hplan.1 _ _ _ hrun
      cases hj : (demand j).restarts with
      | true =>
          obtain rfl : complete = true := by simpa using hlast _ List.mem_cons_self hj
          rw [hmoves.restarted rfl hj]
      | false =>
          -- an attempt that does not restart it is none at those that do
          have hne : ∀ {k}, (demand k).restarts = true → k ≠ j := by
            rintro k hk rfl
            rw [hj] at hk
            cases hk
          rw [lookup_cons_ne (hne hr)] at hdone
          have hstored := Attempts.complete hruns hc ha hplan.2 hi hdone hx hm
          rw [hmoves.inForce hj, kept hruns hc hi hplan.1 (hne hr) hrun hx hstored]
          refine ih hplan.2 (fun a hmem hk => ?_) hdone
          have hlook := hlast a (List.mem_cons_of_mem _ hmem) hk
          rwa [lookup_cons_ne (hne hk)] at hlook

end Attempts

end PkiExecutor
