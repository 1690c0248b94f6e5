import Corsair.Daemon.CommandWire
import Corsair.Lib.Register

namespace Corsair.Daemon

open BrokerApi Trader Wire

-- vol_surface.rs
inductive FitSide where | call | put | both
  deriving DecidableEq, Repr

def FitSide.label : FitSide → String
  | .call => "C"
  | .put => "P"
  | .both => "BOTH"

def FitSide.covers : FitSide → Right → Bool
  | .call, right => right = .call
  | .put, right => right = .put
  | .both, _ => true

structure SabrFit where
  alpha : ℚ
  beta : ℚ
  rho : ℚ
  nu : ℚ
  rmse : ℚ
  nPoints : ℕ

structure VolSurfaceEvent where
  expiry : String
  side : FitSide
  forward : ℚ
  fit : SabrFit
  tsNs : ℕ
  stamped : tsNs < 2^64

namespace VolSurfaceEvent

def encode (ev : VolSurfaceEvent) : Body F64 :=
  [("type", .str "vol_surface"), ("expiry", .str ev.expiry), ("side", .str ev.side.label),
    ("forward", .float (.finite ev.forward)),
    ("params", .map [("model", .str "sabr"), ("alpha", .float (.finite ev.fit.alpha)),
      ("beta", .float (.finite ev.fit.beta)), ("rho", .float (.finite ev.fit.rho)),
      ("nu", .float (.finite ev.fit.nu))]),
    ("rmse", .float (.finite ev.fit.rmse)), ("n_points", .int ev.fit.nPoints), ("ts_ns", .int ev.tsNs)]

def entry (ev : VolSurfaceEvent) : VolSurfaceEntry where
  forward := ev.forward
  params := { model := "sabr", a := none, b := none, rho := some ev.fit.rho, m := none, sigma := none
              alpha := some ev.fit.alpha, beta := some ev.fit.beta, nu := some ev.fit.nu }

-- What the trader keys the surface by.
def key (ev : VolSurfaceEvent) : String × Char := (ev.expiry, sideChar ev.side.label)

end VolSurfaceEvent

-- fit_and_publish, the event of one accepted fit.
def publishFit (expiry : String) (forward : ℚ) (fit : SabrFit) (tsNs : ℕ) (stamped : tsNs < 2^64) :
    VolSurfaceEvent where
  expiry := expiry
  side := .both
  forward := forward
  fit := fit
  tsNs := tsNs
  stamped := stamped

def IsSurface : TraderInput → Prop
  | .event body => ∃ generic, decodeGeneric body = .ok generic ∧ generic.msgType = "vol_surface"
  | .stalenessLoop => False

-- A surface the broker has published, or anything else the trader may have to do.
inductive SurfaceInput where
  | published (ev : VolSurfaceEvent)
  | other (input : TraderInput) (apart : ¬IsSurface input)

def SurfaceInput.toTrader : SurfaceInput → TraderInput
  | .published ev => .event ev.encode
  | .other input _ => input

def SurfaceInput.event? : SurfaceInput → Option VolSurfaceEvent
  | .published ev => some ev
  | .other _ _ => none

def surfaceStep (quoting : Quoting) (s : TraderState) (input : Trader.Turn × SurfaceInput) :
    TraderState × List Command :=
  traderStep quoting s (input.1, input.2.toTrader)

def publishedSurfaces (inputs : List (Trader.Turn × SurfaceInput)) : List VolSurfaceEvent :=
  inputs.filterMap (·.2.event?)

def latestCovering (events : List VolSurfaceEvent) (expiry : String) (right : Right) : Option VolSurfaceEvent :=
  (events.filter fun ev => ev.expiry = expiry ∧ ev.side.covers right).getLast?

-- The latest surface fitted for that side alone.
def latestSided (events : List VolSurfaceEvent) (expiry : String) (side : FitSide) : Option VolSurfaceEntry :=
  Register.last (fun ev : VolSurfaceEvent => (ev.expiry, ev.side)) VolSurfaceEvent.entry events (expiry, side)

def FitSide.of : Right → FitSide
  | .call => .call
  | .put => .put

-- The option's own side, then the calls, then the puts.
def singleSided (events : List VolSurfaceEvent) (expiry : String) (right : Right) : Option VolSurfaceEntry :=
  (latestSided events expiry (.of right)).or ((latestSided events expiry .call).or (latestSided events expiry .put))

def lookedUp (quoting : Quoting) (inputs : List (Trader.Turn × SurfaceInput)) (expiry : String) (right : Right) :
    Option VolSurfaceEntry :=
  surfaceFor (Machine.after (surfaceStep quoting) .new inputs).volSurfaces expiry right.asChar

def LooksUpLatest (quoting : Quoting) (inputs : List (Trader.Turn × SurfaceInput)) (expiry : String) (right : Right) :
    Prop :=
  lookedUp quoting inputs expiry right =
    (latestCovering (publishedSurfaces inputs) expiry right).map VolSurfaceEvent.entry

-- Where nothing covers the side the fallback has nothing to find; where the latest
-- that does is fitted for both, the fallback happens on an equal entry.
def Reachable (events : List VolSurfaceEvent) (expiry : String) (right : Right) : Prop :=
  match latestCovering events expiry right with
  | none => ∀ ev ∈ events, ev.expiry ≠ expiry
  | some ev => ev.side = .both → singleSided events expiry right = some ev.entry

section Untouched

variable (quoting : Quoting) (turn : Trader.Turn) (s : TraderState)

theorem other_surfaces {input : TraderInput} (apart : ¬IsSurface input) :
    (traderStep quoting s (turn, input)).1.volSurfaces = s.volSurfaces := by
  cases input with
  | stalenessLoop => exact congrArg Prod.fst stalenessCheck_broadcasts
  | event body =>
    change (processEvent quoting turn s body).1.volSurfaces = s.volSurfaces
    cases decoded : decodeGeneric body with
    | error e => rw [processEvent_undecoded decoded]
    | ok generic =>
      have notSurface : generic.msgType ≠ "vol_surface" := fun same => apart ⟨generic, decoded, same⟩
      have effect := @processEvent_effect quoting turn s body generic decoded
      generalize generic.msgType = kind at notSurface effect
      generalize processEvent quoting turn s body = result at effect
      cases effect with
      | ticked tick => exact congrArg Prod.fst (onTick_broadcasts tick)
      | surface vs => exact absurd rfl notSurface
      | placeAck p => exact congrArg Prod.fst (takePlaceAck_broadcasts p)
      | orderAck a => exact congrArg Prod.fst (takeOrderAck_broadcasts a)
      | _ => rfl

theorem published_decodes (ev : VolSurfaceEvent) :
    decodeVolSurface ev.encode = .ok ⟨ev.expiry, ev.side.label, ev.forward, ev.entry.params⟩ := rfl

theorem published_surfaces (ev : VolSurfaceEvent) :
    (traderStep quoting s (turn, .event ev.encode)).1.volSurfaces = s.volSurfaces.set ev.key ev.entry := by
  have stamp : optional ev.encode "ts_ns" (asNat 64) = .ok (some ev.tsNs) := by
    have held : find ev.encode "ts_ns" = some (.int ev.tsNs) := rfl
    simp [Wire.optional, held, readAs, asNat_int ev.stamped, Except.map]
  have generic : decodeGeneric ev.encode = .ok ⟨"vol_surface", some ev.tsNs⟩ := by
    unfold decodeGeneric
    rw [stamp]
    rfl
  simp only [traderStep, processEvent, generic, published_decodes]
  rfl

end Untouched

section Keys

variable {events : List VolSurfaceEvent} {expiry : String} {right : Right}

theorem label_char (a b : FitSide) : sideChar a.label = sideChar b.label ↔ a = b := by
  cases a <;> cases b <;> decide

theorem last_keyed (side : FitSide) :
    Register.last VolSurfaceEvent.key VolSurfaceEvent.entry events (expiry, sideChar side.label) =
      latestSided events expiry side := by
  have same : ∀ ev : VolSurfaceEvent,
      ev.key = (expiry, sideChar side.label) ↔ (ev.expiry, ev.side) = (expiry, side) := by
    intro ev
    simp only [VolSurfaceEvent.key, Prod.mk.injEq, label_char]
  unfold latestSided Register.last
  simp only [same]

theorem latestCovering_snoc (ev : VolSurfaceEvent) :
    latestCovering (events ++ [ev]) expiry right =
      if ev.expiry = expiry ∧ ev.side.covers right then some ev else latestCovering events expiry right := by
  unfold latestCovering
  by_cases covering : ev.expiry = expiry ∧ ev.side.covers right
  · simp [covering]
  · simp only [List.filter_append, covering, if_false]
    simp [covering]

theorem FitSide.covers_own {side : FitSide} (covering : side.covers right) : side = .both ∨ side = .of right := by
  cases side <;> cases right <;> simp_all [FitSide.covers, FitSide.of]

theorem FitSide.own_covers : (FitSide.of right).covers right := by
  cases right <;> rfl

theorem covering_absent (missing : latestCovering events expiry right = none) :
    ∀ ev ∈ events, ev.expiry = expiry → ¬ev.side.covers right := by
  intro ev member own covering
  have nothing := List.getLast?_eq_none_iff.mp missing
  have held : ev ∈ events.filter fun ev => ev.expiry = expiry ∧ ev.side.covers right :=
    List.mem_filter.mpr ⟨member, by simp [own, covering]⟩
  rw [nothing] at held
  cases held

-- A surface fitted for one side stays under that side's key until the next one.
theorem sided_latest {ev : VolSurfaceEvent} (latest : latestCovering events expiry right = some ev)
    (single : ev.side ≠ .both) : latestSided events expiry (.of right) = some ev.entry := by
  induction events using List.reverseRecOn with
  | nil => cases latest
  | append_singleton events last found =>
    rw [latestCovering_snoc] at latest
    unfold latestSided
    rw [Register.last_snoc]
    by_cases covering : last.expiry = expiry ∧ last.side.covers right
    · rw [if_pos covering] at latest
      obtain rfl := Option.some.inj latest
      have side : last.side = .of right := (FitSide.covers_own covering.2).resolve_left single
      rw [if_pos (by rw [covering.1, side])]
    · rw [if_neg covering] at latest
      have other : (last.expiry, last.side) ≠ (expiry, .of right) := by
        intro same
        obtain ⟨expires, side⟩ := Prod.mk.inj same
        exact covering ⟨expires, side ▸ FitSide.own_covers⟩
      rw [if_neg other]
      exact found latest

theorem singleSided_absent : singleSided events expiry right = none ↔
    ∀ ev ∈ events, ev.expiry = expiry → ev.side = .both := by
  constructor
  · intro missing ev member own
    simp only [singleSided, Option.or_eq_none_iff] at missing
    by_contra single
    cases side : ev.side with
    | both => exact single side
    | call => exact Register.last_absent _ _ missing.2.1 ev member (by rw [own, side])
    | put => exact Register.last_absent _ _ missing.2.2 ev member (by rw [own, side])
  · intro combined
    have missing : ∀ side : FitSide, side ≠ .both → latestSided events expiry side = none := by
      intro side single
      rw [Option.eq_none_iff_forall_ne_some]
      intro entry found
      obtain ⟨ev, member, own, -⟩ := Register.last_held _ _ found
      cases own
      exact single (combined ev member rfl)
    have own : FitSide.of right ≠ .both := by
      cases right <;> decide
    simp [singleSided, missing _ own, missing .call (by decide), missing .put (by decide)]

end Keys

section Runs

variable (quoting : Quoting)

theorem surfaces_follow (inputs : List (Trader.Turn × SurfaceInput)) (k : String × Char) :
    (Machine.after (surfaceStep quoting) .new inputs).volSurfaces.get k =
      Register.last VolSurfaceEvent.key VolSurfaceEvent.entry (publishedSurfaces inputs) k := by
  refine Machine.follows
    (fun past (s : TraderState) => s.volSurfaces.get k =
      Register.last VolSurfaceEvent.key VolSurfaceEvent.entry (publishedSurfaces past) k) ?_ ?_ inputs
  · intro past s input held
    obtain ⟨turn, input⟩ := input
    unfold publishedSurfaces at *
    rw [List.filterMap_append]
    cases input with
    | published ev =>
      have told : (surfaceStep quoting s (turn, .published ev)).1.volSurfaces = s.volSurfaces.set ev.key ev.entry :=
        published_surfaces quoting turn s ev
      rw [told, HashMap.get_set, held]
      simp only [List.filterMap_cons, SurfaceInput.event?, List.filterMap_nil]
      rw [Register.last_snoc]
      simp only [eq_comm]
    | other input apart =>
      have untouched : (surfaceStep quoting s (turn, .other input apart)).1.volSurfaces = s.volSurfaces :=
        other_surfaces quoting turn s apart
      rw [untouched, held]
      simp [SurfaceInput.event?]
  · exact HashMap.get_empty k

-- What the trader prices with: the both-sided surfaces might as well not be there.
theorem lookedUp_single (inputs : List (Trader.Turn × SurfaceInput)) (expiry : String) (right : Right) :
    lookedUp quoting inputs expiry right = singleSided (publishedSurfaces inputs) expiry right := by
  have own : right.asChar = sideChar (FitSide.of right).label := by
    cases right <;> rfl
  have call : 'C' = sideChar FitSide.call.label := rfl
  have put : 'P' = sideChar FitSide.put.label := rfl
  unfold lookedUp surfaceFor singleSided
  rw [own, call, put]
  simp only [surfaces_follow, last_keyed]

theorem fitted_never_found {inputs : List (Trader.Turn × SurfaceInput)}
    (fitted : ∀ ev ∈ publishedSurfaces inputs, ev.side = .both) (expiry : String) (right : Right) :
    lookedUp quoting inputs expiry right = none := by
  rw [lookedUp_single, singleSided_absent]
  exact fun ev member _ => fitted ev member

theorem looks_up_latest_iff (inputs : List (Trader.Turn × SurfaceInput)) (expiry : String) (right : Right) :
    LooksUpLatest quoting inputs expiry right ↔ Reachable (publishedSurfaces inputs) expiry right := by
  unfold LooksUpLatest Reachable
  rw [lookedUp_single]
  cases latest : latestCovering (publishedSurfaces inputs) expiry right with
  | none =>
    simp only [Option.map_none, singleSided_absent]
    have uncovered := covering_absent latest
    constructor
    · intro combined ev member own
      exact uncovered ev member own (by rw [combined ev member own]; rfl)
    · intro silent ev member own
      exact absurd own (silent ev member)
  | some ev =>
    simp only [Option.map_some]
    constructor
    · exact fun found _ => found
    · intro equal
      by_cases combined : ev.side = .both
      · exact equal combined
      · simp [singleSided, sided_latest latest combined]

end Runs

def juneFit : VolSurfaceEvent :=
  publishFit "20260626" 6 { alpha := 1/5, beta := 1/2, rho := 0, nu := 1/10, rmse := 1/100, nPoints := 5 } 1 (by decide)

-- One accepted fit, and the calls it was fitted for have no surface.
theorem june_fit_unseen :
    lookedUp atmQuoting [(quotes, .published juneFit)] "20260626" .call = none ∧
      ¬LooksUpLatest atmQuoting [(quotes, .published juneFit)] "20260626" .call := by
  have unseen : lookedUp atmQuoting [(quotes, .published juneFit)] "20260626" .call = none := by
    refine fitted_never_found atmQuoting ?_ _ _
    intro ev member
    rw [List.mem_singleton.mp member]
    rfl
  refine ⟨unseen, fun latest => ?_⟩
  rw [LooksUpLatest, unseen] at latest
  have covering : latestCovering [juneFit] "20260626" .call = some juneFit := by
    simp [latestCovering, juneFit, publishFit, FitSide.covers]
  have published : publishedSurfaces [(quotes, SurfaceInput.published juneFit)] = [juneFit] := rfl
  rw [published, covering] at latest
  cases latest

end Corsair.Daemon
