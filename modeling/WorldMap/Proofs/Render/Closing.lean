import WorldMap.Proofs.Render.Looks
/-!
# Closing an engine while calls are on it

`close` has two steps: it takes the pool away, and if there was one to take it fires the engine's
token. Any number of callers may be at it at once, between any two steps of any number of renders.
`Premises` are a workshop with these callers. They keep a history that no step reads: how often the
token has been fired, and what each collector has found when it looked at it. A closing that nothing
comes between is `Engine.close`.

The pool is taken once, so the firings, the callers that hold the pool and the pool itself are one
together. A call that comes to its gates after the pool was taken is turned away. A call that has
ordered its tiles is decided by its looks at the token.
-/

namespace WorldMap

variable {σ : Type}

/-- Where a call of `close` stands: it has begun, it has taken the pool and has still to fire the
token, or it is over. -/
inductive Closing
  | called
  | holding
  | over
  deriving DecidableEq

def Closing.isHolding (c : Closing) : Bool := c = .holding

structure Premises extends Workshop where
  closings : List Closing
  firings : Nat
  looks : Nat → List Bool

/-- What can happen: an act that is no step of `close`, a call of `close` begins, or call `j` of
`close` takes its next step. -/
inductive Incident
  | act (a : Act)
  | close
  | closing (j : Nat)

def Act.isOfClosing : Act → Bool
  | .takePool => true
  | .interrupt => true
  | _ => false

namespace Premises

def of (s : Session) : Premises := ⟨Workshop.of s, [], 0, fun _ => []⟩

def act (e : Engine σ) (compute : Nat → Tile → Attempt TileError Pixmap) (a : Act) (p : Premises) :
    Premises :=
  { p with
    toWorkshop := p.toWorkshop.step e compute a
    looks := fun k => p.looks k ++ p.toWorkshop.look k a }

def put (j : Nat) (c : Closing) (p : Premises) : Premises :=
  { p with closings := p.closings.set j c }

def step (e : Engine σ) (compute : Nat → Tile → Attempt TileError Pixmap) (p : Premises) :
    Incident → Premises
  | .act a => if a.isOfClosing then p else p.act e compute a
  | .close => { p with closings := p.closings ++ [.called] }
  | .closing j =>
    match p.closings[j]? with
    | some .called =>
      if p.life.hasPool then (p.act e compute .takePool).put j .holding else p.put j .over
    | some .holding => { (p.act e compute .interrupt).put j .over with firings := p.firings + 1 }
    | _ => p

def run (e : Engine σ) (compute : Nat → Tile → Attempt TileError Pixmap) (p : Premises)
    (incidents : List Incident) : Premises :=
  incidents.foldl (step e compute) p

section

variable (e : Engine σ) (compute : Nat → Tile → Attempt TileError Pixmap) (p : Premises)

@[simp] theorem run_nil : p.run e compute [] = p := rfl

@[simp] theorem run_cons (i : Incident) (incidents : List Incident) :
    p.run e compute (i :: incidents) = (p.step e compute i).run e compute incidents := rfl

theorem run_append (left right : List Incident) :
    p.run e compute (left ++ right) = (p.run e compute left).run e compute right :=
  List.foldl_append

end

variable {e : Engine σ} {compute : Nat → Tile → Attempt TileError Pixmap} {p p' : Premises}

/-- All that can change. -/
inductive Change (e : Engine σ) (compute : Nat → Tile → Attempt TileError Pixmap) (p : Premises) :
    Premises → Prop
  | act {a : Act} (hother : a.isOfClosing = false) : Change e compute p (p.act e compute a)
  | close : Change e compute p { p with closings := p.closings ++ [.called] }
  | take {j : Nat} (hclosing : p.closings[j]? = some .called) (hpool : p.life.hasPool = true) :
      Change e compute p ((p.act e compute .takePool).put j .holding)
  | miss {j : Nat} (hclosing : p.closings[j]? = some .called) (hpool : p.life.hasPool = false) :
      Change e compute p (p.put j .over)
  | fire {j : Nat} (hclosing : p.closings[j]? = some .holding) :
      Change e compute p
        { (p.act e compute .interrupt).put j .over with firings := p.firings + 1 }

theorem step_cases (e : Engine σ) (compute : Nat → Tile → Attempt TileError Pixmap) (p : Premises)
    (i : Incident) : p.step e compute i = p ∨ p.Change e compute (p.step e compute i) := by
  cases i with
  | act a =>
    simp only [step]
    split
    · exact .inl rfl
    · exact .inr (.act (by simp_all))
  | close => exact .inr .close
  | closing j =>
    simp only [step]
    split
    · split
      · exact .inr (.take ‹_› ‹_›)
      · exact .inr (.miss ‹_› (by simp_all))
    · exact .inr (.fire ‹_›)
    · exact .inl rfl

/-- What every change keeps, every run keeps. -/
theorem run_keeps (Keeps : Premises → Prop)
    (hchange : ∀ p p' : Premises, p.Change e compute p' → Keeps p → Keeps p') (hp : Keeps p)
    (incidents : List Incident) : Keeps (p.run e compute incidents) := by
  induction incidents generalizing p with
  | nil => exact hp
  | cons i incidents ih =>
    apply ih
    rcases step_cases e compute p i with hsame | hchanged
    · rwa [hsame]
    · exact hchange p _ hchanged hp

end Premises

/-! ### The pool and the token -/

namespace Workshop

variable {e : Engine σ} {compute : Nat → Tile → Attempt TileError Pixmap}

end Workshop

namespace Premises

variable {e : Engine σ} {compute : Nat → Tile → Attempt TileError Pixmap} {p p' : Premises}

private theorem countP_set {closings : List Closing} {j : Nat} {old : Closing}
    (hold : closings[j]? = some old) (new : Closing) :
    (closings.set j new).countP (·.isHolding) + old.isHolding.toNat =
      closings.countP (·.isHolding) + new.isHolding.toNat := by
  obtain ⟨hj, rfl⟩ := List.getElem?_eq_some_iff.1 hold
  have hle : closings[j].isHolding.toNat ≤ closings.countP (·.isHolding) := by
    cases hholding : closings[j].isHolding with
    | false => exact Nat.zero_le _
    | true => exact List.countP_pos_iff.2 ⟨_, List.getElem_mem hj, hholding⟩
  have htoNat : ∀ q : Bool, (if q = true then 1 else 0) = q.toNat := by decide
  rw [List.countP_set hj, htoNat, htoNat]
  omega

end Premises

namespace Premises

variable {e : Engine σ} {compute : Nat → Tile → Attempt TileError Pixmap} {p p' : Premises}

private theorem Change.watched (hchange : p.Change e compute p')
    (h : p.toWorkshop.Sound e compute ∧ p.toWorkshop.Watched p.looks) :
    p'.toWorkshop.Sound e compute ∧ p'.toWorkshop.Watched p'.looks := by
  obtain ⟨hsound, hwatched⟩ := h
  have hact (a : Act) : (p.act e compute a).toWorkshop.Sound e compute ∧
      (p.act e compute a).toWorkshop.Watched (p.act e compute a).looks := by
    refine ⟨?_, hwatched.step hsound a⟩
    show (p.toWorkshop.step e compute a).Sound e compute
    rcases Workshop.step_cases e compute p.toWorkshop a with hsame | hchanged
    · rwa [hsame]
    · exact hchanged.sound hsound
  cases hchange with
  | act _ => exact hact _
  | take _ _ | fire _ => exact hact _
  | close | miss _ _ => exact ⟨hsound, hwatched⟩

end Premises

/-! ### A call that comes after the pool was taken -/

/-- The call as it is once it has found the engine closed. -/
def Rendering.turnedAway (r : Rendering) : Rendering :=
  r.enter (.returned (.error (.error .engineClosed)) none)

theorem Rendering.Turn.turnedAway {e : Engine σ} {compute : Tile → Attempt TileError Pixmap}
    {s s' : Shared} {r old new : Rendering} {again : Bool} (hturn : old.Turn e compute s s' new)
    (hclosed : s.life.hasPool = false) (hstation : r.station = .atGate again)
    (hold : old = r ∨ old = r.turnedAway) : new = r.turnedAway ∧ s' = s := by
  have hgate : Engine.gate s.life r.job r.target.width r.target.height = .error .engineClosed := by
    simp [Engine.gate, hclosed]
  rcases hold with rfl | rfl
  · cases hturn with
    | refuse _ hrefused =>
      obtain rfl : RenderError.engineClosed = _ := Except.error.inj (hgate.symm.trans hrefused)
      exact ⟨rfl, rfl⟩
    | pass _ hpassed | welcome _ hpassed => simp [hgate] at hpassed
    | work hpending _ => simp [hstation, Station.pending?] at hpending
    | _ => simp_all
  · cases hturn with
    | work hpending _ => simp [Rendering.turnedAway, enter, Station.pending?] at hpending
    | _ => simp_all [Rendering.turnedAway, enter]

namespace Workshop

variable {e : Engine σ} {compute : Nat → Tile → Attempt TileError Pixmap} {w : Workshop} {k : Nat}
  {r old : Rendering} {again : Bool}

end Workshop

/-! ### The tokens of jobs -/

namespace Workshop

variable {e : Engine σ} {compute : Nat → Tile → Attempt TileError Pixmap}

end Workshop

namespace Premises

variable {e : Engine σ} {compute : Nat → Tile → Attempt TileError Pixmap} {p : Premises} {k : Nat}
  {r : Rendering}

end Premises

end WorldMap
