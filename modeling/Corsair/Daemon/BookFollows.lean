import Corsair.Book.Calls
import Corsair.Book.ProductDelta
import Corsair.Daemon.ReconcilePositions
import Corsair.Hedge.Accounting

namespace Corsair.Daemon

open BrokerApi Book MarketData Native
open Hedge.HedgeState (FitsI32)

-- What the gateway has told of positions, among all that the dispatcher took.
def positionMessage : AdapterEvent → Option PositionMsg
  | event => event.message.bind fun
    | .position p => some p
    | _ => none

section Seeded

variable (chrono : Chrono)

-- The position the broker's last readable word on an account's contract leaves open.
def openPosition (messages : List PositionMsg) (key : String × ℤ) : Option BrokerApi.Position :=
  ((Register.last positionKey id (messages.filter readable) key).filter (¬·.position.isZero)).bind
    (nativeToPosition chrono)

def openPositions (messages : List PositionMsg) : List BrokerApi.Position :=
  (messages.map positionKey).dedup.filterMap (openPosition chrono messages)

-- A position message that leaves an option of a registered product open under a key of
-- the book: it names a right, a strike and a multiplier that can be read.
def OpensOption (registry : ProductRegistry) (key : PositionKey) (p : PositionMsg) : Prop :=
  p.position.isZero = false ∧ (p.contract.secType = "OPT" ∨ p.contract.secType = "FOP") ∧
    p.contract.symbol ∈ registry.products ∧ p.contract.symbol = key.product ∧
    parseRight p.contract.right = some key.right ∧ p.contract.strike.positive = true ∧
    strikeKey p.contract.strike.exact = key.strikeKey ∧
    (chrono.parseDate p.contract.lastTradeDate "%Y%m%d").getD .epoch = key.expiry ∧
    (parseFloat p.contract.multiplier).any F64.positive = true

instance (registry : ProductRegistry) (key : PositionKey) (p : PositionMsg) :
    Decidable (OpensOption chrono registry key p) :=
  inferInstanceAs (Decidable (_ ∧ _))

-- The last readable word on each contract of each account.
def lastWords (messages : List PositionMsg) : List PositionMsg :=
  (messages.map positionKey).dedup.filterMap (Register.last positionKey id (messages.filter readable))

def openQuantity (registry : ProductRegistry) (messages : List PositionMsg) (key : PositionKey) : ℤ :=
  (((lastWords messages).filter fun p => OpensOption chrono registry key p).map fun p => p.position.asI32).sum

def booted (r : Runtime) (rows : List BrokerApi.Position) : Runtime :=
  match seedPositionsFromBroker r (.ok rows) with
  | .ok next => next
  | .error _ => r

end Seeded

-- What the boot makes of one message.
def seededBy (chrono : Chrono) (registry : ProductRegistry) (p : PositionMsg) : Option Book.Position :=
  if p.position.isZero then none
  else (nativeToPosition chrono p).bind fun pos =>
    if pos.contract.symbol ∈ registry.products then seedOption pos else none

-- What an event adds to the option book.
def booking (d : DaemonState) : DaemonEvent → Option (PositionKey × ℤ)
  | .fill fill _ _ =>
    if (offerFill d.runtime.hedge fill (managedProducts d.runtime.hedge)).2 then none
    else (matchedOption d.runtime fill.instrumentId).map fun found =>
      (makeKey found.1 found.2.strike found.2.expiry found.2.right, qtySigned fill)
  | _ => none

def bookings (d : DaemonState) : List DaemonEvent → List (PositionKey × ℤ)
  | [] => []
  | e :: rest => (booking d e).toList ++ bookings (daemonStep d e).1 rest

-- The fill is one of a registered option's instrument.
def TradesOption (r : Runtime) (fill : Fill) (product : String) (t : OptionTick) : Prop :=
  product ∈ r.portfolio.registry.products ∧ t ∈ r.marketData.optionsForProduct product ∧
    t.instrumentId = some fill.instrumentId

-- What is booked of a fill is its own, and all of it unless a hedge takes it.
structure BooksFill (r : Runtime) (fill : Fill) (entry : Option (PositionKey × ℤ)) : Prop where
  own : ∀ key quantity, entry = some (key, quantity) → quantity = qtySigned fill ∧
    ∃ product t, TradesOption r fill product t ∧ key = makeKey product t.strike t.expiry t.right
  booked : (∃ product t, TradesOption r fill product t) → (∀ m ∈ r.hedge.managers, m.accepts fill = false) → entry.isSome

-- The sum that the booking makes in its position stays within an i32.
def BookingFits (d : DaemonState) (e : DaemonEvent) : Prop :=
  ∀ entry ∈ booking d e, FitsI32 entry.2 ∧
    ∀ p ∈ d.runtime.portfolio.positions, p.key = entry.1 → FitsI32 (p.quantity + entry.2)

instance (d : DaemonState) (e : DaemonEvent) : Decidable (BookingFits d e) :=
  inferInstanceAs (Decidable (∀ entry ∈ booking d e, FitsI32 entry.2 ∧
    ∀ p ∈ d.runtime.portfolio.positions, p.key = entry.1 → FitsI32 (p.quantity + entry.2)))

section Cache

variable {chrono : Chrono}

theorem routePosition_positions {s t : BrokerState} (same : s.positions = t.positions) (p : PositionMsg) :
    (routePosition chrono s p).positions = (routePosition chrono t p).positions := by
  unfold routePosition
  dsimp only
  split
  · change s.positions.remove _ = t.positions.remove _
    rw [same]
  · cases nativeToPosition chrono p with
    | none => exact same
    | some pos =>
      change s.positions.set _ pos = t.positions.set _ pos
      rw [same]

-- A position message alone changes the cache of positions.
theorem route_positions (now : ℕ) (publisher : Bool) (s : BrokerState) (msg : InboundMsg) :
    (route chrono now publisher s msg).1.positions =
      match msg with
      | .position p => (routePosition chrono s p).positions
      | _ => s.positions := by
  cases msg with
  | openOrder o =>
    simp only [route, routeOpenOrder, resolvePlaceAck]
    cases nativeToOpenOrder chrono o <;> rfl
  | orderStatus o =>
    simp only [route, routeOrderStatus, resolvePlaceAck]
    split <;> rfl
  | execution e =>
    simp only [route, routeExecution]
    split
    · rfl
    · split <;> rfl
  | _ => rfl

theorem adapter_positions (publisher : Bool) (inputs : List AdapterEvent) :
    (Machine.after (adapterStep chrono publisher) .default inputs).positions =
      (positioned chrono (inputs.filterMap positionMessage)).positions := by
  refine Machine.follows
    (fun past (s : BrokerState) => s.positions = (positioned chrono (past.filterMap positionMessage)).positions) ?_ rfl inputs
  intro past s input known
  rw [List.filterMap_append]
  cases input with
  | frame now fields =>
    have told : positionMessage (.frame now fields) = (parseInbound fields).toOption.bind fun
        | .position p => some p
        | _ => none := rfl
    simp only [adapterStep, dispatch]
    cases parsed : parseInbound fields with
    | error e =>
      rw [parsed] at told
      rw [List.filterMap_cons_none told, List.filterMap_nil, List.append_nil]
      exact known
    | ok msg =>
      rw [parsed] at told
      have moved := @route_positions chrono now publisher s msg
      cases msg with
      | position p =>
        rw [moved, List.filterMap_cons_some told, List.filterMap_nil]
        unfold positioned
        rw [List.foldl_append]
        exact routePosition_positions known p
      | _ =>
        rw [moved, List.filterMap_cons_none told, List.filterMap_nil, List.append_nil]
        exact known
  | fillsRequested reqId =>
    rw [List.filterMap_cons_none rfl, List.filterMap_nil, List.append_nil]
    exact known
  | fillsTimedOut reqId =>
    rw [List.filterMap_cons_none rfl, List.filterMap_nil, List.append_nil]
    exact known

-- In whatever order the cache yields them, the open positions.
theorem positionList_open (messages : List PositionMsg) :
    (positioned chrono messages).positionList.Perm (openPositions chrono messages) := by
  have found : (positioned chrono messages).positions.get = openPosition chrono messages :=
    funext (positioned_get messages)
  unfold openPositions
  rw [← found]
  refine HashMap.values_perm (List.nodup_dedup _) ?_
  intro key pos cached
  rw [found] at cached
  obtain ⟨p, last, -⟩ := Option.bind_eq_some_iff.mp cached
  obtain ⟨told, member, own, -⟩ := Register.last_held _ _ (Option.filter_eq_some_iff.mp last).1
  rw [List.mem_dedup, ← own]
  exact List.mem_map_of_mem (List.mem_of_mem_filter member)

end Cache

section Books

variable {d : DaemonState}

theorem parseKind_option {secType : String} :
    parseKind secType = some .option ↔ secType = "OPT" ∨ secType = "FOP" := by
  unfold parseKind
  split <;> simp_all

theorem parseOrZero_positive (text : String) :
    (parseOrZero text).positive = (parseFloat text).any F64.positive := by
  unfold parseOrZero
  cases parseFloat text with
  | none => simp [F64.positive]
  | some value => rfl

theorem seededBy_reads (chrono : Chrono) (registry : ProductRegistry) (p : PositionMsg) :
    (seededBy chrono registry p).map (fun b => (b.key, b.quantity)) =
      if p.position.isZero = false ∧ parseKind p.contract.secType = some .option ∧
        p.contract.symbol ∈ registry.products ∧ p.contract.strike.positive = true ∧
        (parseOrZero p.contract.multiplier).positive = true
      then (parseRight p.contract.right).map fun right =>
        (makeKey p.contract.symbol p.contract.strike.exact
          ((chrono.parseDate p.contract.lastTradeDate "%Y%m%d").getD .epoch) right, p.position.asI32)
      else none := by
  unfold seededBy
  by_cases zero : p.position.isZero = true
  · simp [zero]
  · cases parsed : parseKind p.contract.secType with
    | none => simp [nativeToPosition, decodedContract, parsed]
    | some kind =>
      by_cases known : p.contract.symbol ∈ registry.products
      · by_cases option : kind = .option
        · by_cases strike : p.contract.strike.positive = true
          · by_cases lots : (parseOrZero p.contract.multiplier).positive = true
            · cases right : parseRight p.contract.right with
              | none => simp [nativeToPosition, decodedContract, seedOption, parsed, known, option, right]
              | some right' =>
                simp [nativeToPosition, decodedContract, seedOption, parsed, known, option, right, strike, lots, zero,
                  Book.Position.key]
            · simp [nativeToPosition, decodedContract, seedOption, parsed, known, option, lots]
          · simp [nativeToPosition, decodedContract, seedOption, parsed, known, option, strike]
        · simp [nativeToPosition, decodedContract, seedOption, parsed, known, option]
      · simp [nativeToPosition, decodedContract, parsed, known]

-- The boot takes from a message exactly an option that it leaves open.
theorem seededBy_quantity (chrono : Chrono) (registry : ProductRegistry) (key : PositionKey) (p : PositionMsg) :
    Register.total Position.key Position.quantity (seededBy chrono registry p).toList key =
      if OpensOption chrono registry key p then p.position.asI32 else 0 := by
  have reads := seededBy_reads chrono registry p
  cases seeded : seededBy chrono registry p with
  | none =>
    rw [if_neg]
    · rfl
    · rintro ⟨opened, option, known, -, right, strike, -, -, lots⟩
      rw [seeded, if_pos ⟨opened, parseKind_option.mpr option, known, strike, (parseOrZero_positive _).trans lots⟩,
        right] at reads
      cases reads
  | some b =>
    rw [seeded, Option.map_some] at reads
    split at reads
    · rename_i counted
      obtain ⟨opened, option, known, strike, lots⟩ := counted
      obtain ⟨right, parsed, same⟩ := Option.map_eq_some_iff.mp reads.symm
      obtain ⟨own, amount⟩ := Prod.mk.inj same
      have opens : OpensOption chrono registry key p ↔ b.key = key := by
        rw [← own]
        constructor
        · rintro ⟨-, -, -, product, call, -, rounded, expiry, -⟩
          obtain rfl := Option.some.inj (parsed.symm.trans call)
          rw [makeKey, product, rounded, expiry]
        · rintro rfl
          exact ⟨opened, parseKind_option.mp option, known, rfl, parsed, strike, rfl, rfl,
            (parseOrZero_positive _).symm.trans lots⟩
      have owned : ∀ e ∈ some b, e.key = b.key := by
        simp
      rw [Register.total_option Position.key Position.quantity owned]
      simp only [opens, Option.map_some, Option.getD_some, ← amount]
    · cases reads

theorem seeded_words (chrono : Chrono) (registry : ProductRegistry) (messages : List PositionMsg) :
    ((openPositions chrono messages).filter (·.contract.symbol ∈ registry.products)).filterMap seedOption =
      (lastWords messages).filterMap (seededBy chrono registry) := by
  unfold openPositions lastWords
  rw [List.filter_filterMap, List.filterMap_filterMap, List.filterMap_filterMap]
  refine List.filterMap_congr ?_
  intro key _
  unfold openPosition seededBy
  cases Register.last positionKey id (messages.filter readable) key with
  | none => rfl
  | some p =>
    by_cases zero : p.position.isZero = true
    · simp [Option.filter_some, zero]
    · cases read : nativeToPosition chrono p with
      | none => simp [Option.filter_some, zero, read]
      | some pos => by_cases known : pos.contract.symbol ∈ registry.products <;> simp [Option.filter_some, zero, read, known]

theorem words_quantity (chrono : Chrono) (registry : ProductRegistry) (key : PositionKey) (words : List PositionMsg) :
    Register.total Position.key Position.quantity (words.filterMap (seededBy chrono registry)) key =
      ((words.filter fun p => OpensOption chrono registry key p).map fun p => p.position.asI32).sum := by
  induction words with
  | nil => rfl
  | cons p rest next =>
    have split : (p :: rest).filterMap (seededBy chrono registry) =
        (seededBy chrono registry p).toList ++ rest.filterMap (seededBy chrono registry) := by
      cases seeded : seededBy chrono registry p <;> simp [seeded]
    rw [split, Register.total_append, seededBy_quantity, next]
    by_cases opens : OpensOption chrono registry key p
    · simp [opens]
    · simp [opens]

theorem seeded_quantity {chrono : Chrono} {messages : List PositionMsg} {rows : List BrokerApi.Position}
    (order : rows.Perm (openPositions chrono messages)) (r : Runtime) (key : PositionKey) :
    quantityHeld (booted r rows).portfolio.positions key =
      openQuantity chrono r.portfolio.registry messages key := by
  have known := order.filter fun pos => decide (pos.contract.symbol ∈ r.portfolio.registry.products)
  have same := Register.total_perm Position.key Position.quantity (known.filterMap seedOption) key
  rw [seeded_words] at same
  exact same.trans (words_quantity chrono r.portfolio.registry key (lastWords messages))

theorem asI32_fits (x : F64) : FitsI32 x.asI32 := by
  unfold F64.asI32 F64.saturating FitsI32
  split
  · unfold saturate
    omega
  · omega
  · omega
  · omega

theorem seeded_fits {chrono : Chrono} {messages : List PositionMsg} {rows : List BrokerApi.Position}
    (order : rows.Perm (openPositions chrono messages)) (r : Runtime) :
    ∀ p ∈ (booted r rows).portfolio.positions, FitsI32 p.quantity := by
  intro p member
  have known := (order.filter fun pos => decide (pos.contract.symbol ∈ r.portfolio.registry.products)).filterMap seedOption
  rw [seeded_words] at known
  obtain ⟨word, -, seeded⟩ := List.mem_filterMap.mp (known.mem_iff.mp member)
  have reads := seededBy_reads chrono r.portfolio.registry word
  rw [seeded, Option.map_some] at reads
  split at reads
  · obtain ⟨right, -, same⟩ := Option.map_eq_some_iff.mp reads.symm
    rw [← (Prod.mk.inj same).2]
    exact asI32_fits _
  · cases reads

theorem handleFill_portfolio (r : Runtime) (fill : Fill) (now : ℕ) (opens : Except BrokerError (List OpenOrder)) :
    (handleFill r fill now opens).1.portfolio = ((bookedOn r fill).map (·.portfolio)).getD r.portfolio := by
  cases books : bookedOn r fill with
  | some next =>
    obtain ⟨product, result⟩ := handleFill_booked books now opens
    rw [result]
    exact hedgeOnFill_portfolio _ _
  | none =>
    unfold bookedOn at books
    unfold handleFill
    split at books
    · rename_i taken
      simp only [taken]
      rfl
    · rename_i refused
      rw [Option.map_eq_none_iff.mp books]
      simp only [refused]
      rfl

theorem offerFill_untaken {h : Hedge.HedgeFanout} {fill : Fill} (none : ∀ m ∈ h.managers, m.accepts fill = false)
    (products : List String) : (offerFill h fill products).2 = false := by
  induction products with
  | nil => rfl
  | cons prod rest next =>
    unfold offerFill
    cases found : h.forProduct prod with
    | none => exact next
    | some mgr =>
      have refused : ¬mgr.accepts fill := by simp [none mgr (List.mem_of_find?_eq_some found)]
      simp only [Hedge.HedgeManager.applyBrokerFill_refused refused, Bool.false_eq_true, if_false]
      exact next

theorem matchedOption_trades {r : Runtime} {fill : Fill} {product : String} {t : OptionTick}
    (matched : matchedOption r fill.instrumentId = some (product, t)) : TradesOption r fill product t := by
  obtain ⟨_, _, _, listed, found, _⟩ := List.findSome?_eq_some_iff.mp matched
  obtain ⟨tick, held, same⟩ := Option.map_eq_some_iff.mp found
  cases same
  exact ⟨by simp [listed], List.mem_of_find?_eq_some held, by simpa using List.find?_some held⟩

theorem trades_matched {r : Runtime} {fill : Fill} {product : String} {t : OptionTick} (trades : TradesOption r fill product t) :
    (matchedOption r fill.instrumentId).isSome := by
  obtain ⟨listed, held, own⟩ := trades
  unfold matchedOption optionOf
  rw [List.findSome?_isSome_iff]
  refine ⟨product, listed, ?_⟩
  rw [Option.isSome_map, List.find?_isSome]
  exact ⟨t, held, by simp [own]⟩

theorem booking_fill (d : DaemonState) (fill : Fill) (now : ℕ) (book : BrokerBook) :
    BooksFill d.runtime fill (booking d (.fill fill now book)) := by
  constructor
  · intro key quantity booked
    simp only [booking] at booked
    split at booked
    · cases booked
    · obtain ⟨⟨product, t⟩, matched, same⟩ := Option.map_eq_some_iff.mp booked
      cases same
      exact ⟨rfl, product, t, matchedOption_trades matched, rfl⟩
  · rintro ⟨product, t, trades⟩ refused
    simp only [booking, offerFill_untaken refused, Bool.false_eq_true, if_false, Option.isSome_map]
    exact trades_matched trades

-- A fill is booked, or the greeks are refreshed, or the book stays.
theorem step_portfolio (d : DaemonState) (e : DaemonEvent) :
    (daemonStep d e).1.runtime.portfolio =
      match e with
      | .fill fill _ _ => ((bookedOn d.runtime fill).map (·.portfolio)).getD d.runtime.portfolio
      | .greekRefresh pricing => d.runtime.portfolio.refreshGreeks pricing d.runtime.marketData.view
      | _ => d.runtime.portfolio := by
  cases e with
  | fill fill now book => exact handleFill_portfolio d.runtime fill now book.openOrders
  | connection ev =>
    simp only [daemonStep, pumpConnection]
    split <;> rfl
  | rollover hour today =>
    simp only [daemonStep, dailyHaltRollover]
    split <;> rfl
  | placeTaken cmd clock =>
    simp only [daemonStep]
    split <;> rfl
  | cancel cmd =>
    simp only [daemonStep]
    split <;> rfl
  | tick tick =>
    simp only [daemonStep, pumpTick]
    cases tick.price with
    | none => rfl
    | some price => cases tick.kind <;> rfl
  | accountPoll answer => cases answer <;> rfl
  | _ => rfl

theorem refreshed_quantity (s : PortfolioState) (pricing : Pricing) (market : MarketView) (key : PositionKey) :
    quantityHeld (s.refreshGreeks pricing market).positions key = quantityHeld s.positions key := by
  have kept := refreshPosition_kept pricing s.registry market
  exact Register.total_map Position.key Position.quantity (fun p => (kept p).1) (fun p => (kept p).2.2) s.positions key

theorem booked_quantity {s : PortfolioState} (maps : Maps s.index s.positions) (product : String) (t : OptionTick)
    (fill : Fill) :
    let next := bookFill s product t fill
    Maps next.index next.positions ∧ ∀ key, quantityHeld next.positions key = quantityHeld s.positions key +
      if makeKey product t.strike t.expiry t.right = key then qtySigned fill else 0 := by
  let f : BookFill := ⟨product, t.strike, t.expiry, t.right, qtySigned fill, fill.price.exact, 0, 0⟩
  let seeded : List Book.Position × List BookFill := (s.positions, [])
  have kept : ∀ key, quantityHeld s.positions key = quantityHeld seeded.1 key + held seeded.2 key :=
    fun key => (add_zero _).symm
  refine ⟨fill_maps maps f, ?_⟩
  intro key
  have added := call_total maps kept (.addFill f) key
  exact added.trans (congrArg _ ((held_snoc [] f key).trans (zero_add _)))

theorem step_cases (d : DaemonState) (e : DaemonEvent) :
    let next := (daemonStep d e).1.runtime.portfolio
    (next = d.runtime.portfolio ∧ booking d e = none) ∨
      (∃ pricing, next = d.runtime.portfolio.refreshGreeks pricing d.runtime.marketData.view ∧ booking d e = none) ∨
      ∃ product t fill, next = bookFill d.runtime.portfolio product t fill ∧
        booking d e = some (makeKey product t.strike t.expiry t.right, qtySigned fill) := by
  intro next
  have moved : next = _ := step_portfolio d e
  cases e with
  | fill fill now book =>
    by_cases taken : (offerFill d.runtime.hedge fill (managedProducts d.runtime.hedge)).2 = true
    · exact .inl ⟨by simpa [bookedOn, taken] using moved, by simp [booking, taken]⟩
    · cases matched : matchedOption d.runtime fill.instrumentId with
      | none => exact .inl ⟨by simpa [bookedOn, taken, matched] using moved, by simp [booking, taken, matched]⟩
      | some found =>
        refine .inr (.inr ⟨found.1, found.2, fill, ?_, ?_⟩)
        · simpa [bookedOn, taken, matched] using moved
        · simp [booking, taken, matched]
  | greekRefresh pricing => exact .inr (.inl ⟨pricing, moved, rfl⟩)
  | _ => exact .inl ⟨moved, rfl⟩

theorem step_books (maps : Maps d.runtime.portfolio.index d.runtime.portfolio.positions) (e : DaemonEvent) :
    let next := (daemonStep d e).1.runtime.portfolio
    Maps next.index next.positions ∧ ∀ key, quantityHeld next.positions key =
      quantityHeld d.runtime.portfolio.positions key + Register.total Prod.fst Prod.snd (booking d e).toList key := by
  intro next
  rcases step_cases d e with ⟨same, silent⟩ | ⟨pricing, refreshed, silent⟩ | ⟨product, t, fill, written, booked⟩
  · change next = _ at same
    rw [same, silent]
    exact ⟨maps, fun key => (add_zero _).symm⟩
  · change next = _ at refreshed
    rw [refreshed, silent]
    refine ⟨maps_same maps (refreshed_keys _ _ _), ?_⟩
    intro key
    rw [refreshed_quantity]
    exact (add_zero _).symm
  · change next = _ at written
    rw [written, booked]
    refine (booked_quantity maps product t fill).imp_right ?_
    intro added key
    have single := Register.total_snoc Prod.fst Prod.snd [] (makeKey product t.strike t.expiry t.right, qtySigned fill) key
    rw [added]
    exact congrArg _ (single.trans (zero_add _)).symm

theorem booked_fits {s : PortfolioState} (maps : Maps s.index s.positions) (kept : ∀ p ∈ s.positions, FitsI32 p.quantity)
    (product : String) (t : OptionTick) (fill : Fill) (whole : FitsI32 (qtySigned fill))
    (sums : ∀ p ∈ s.positions, p.key = makeKey product t.strike t.expiry t.right → FitsI32 (p.quantity + qtySigned fill)) :
    ∀ p ∈ (bookFill s product t fill).positions, FitsI32 p.quantity := by
  unfold bookFill
  by_cases none : qtySigned fill = 0
  · rw [none, addFill_zero]
    exact kept
  · obtain ⟨-, -, -, shape⟩ := addFill_maps maps product t.strike t.expiry t.right none fill.price.exact 0 0
    generalize (s.addFill product t.strike t.expiry t.right (qtySigned fill) fill.price.exact 0 0).1.positions = after at *
    intro p member
    cases shape with
    | opened absent =>
      rcases List.mem_append.mp member with old | new
      · exact kept p old
      · cases List.mem_singleton.mp new
        exact whole
    | @closed early later pos split same flat =>
      refine kept p ?_
      rw [split]
      rcases List.mem_append.mp member with before | behind
      · exact List.mem_append_left _ before
      · exact List.mem_append_right _ (List.mem_cons_of_mem _ behind)
    | @merged early later pos split same left =>
      rcases List.mem_append.mp member with before | rest
      · exact kept p (split ▸ List.mem_append_left _ before)
      · rcases List.mem_cons.mp rest with own | behind
        · rw [own]
          exact sums pos (split ▸ List.mem_append_right _ List.mem_cons_self) same
        · exact kept p (split ▸ List.mem_append_right _ (List.mem_cons_of_mem _ behind))

theorem step_fits (maps : Maps d.runtime.portfolio.index d.runtime.portfolio.positions)
    (kept : ∀ p ∈ d.runtime.portfolio.positions, FitsI32 p.quantity) {e : DaemonEvent} (fits : BookingFits d e) :
    ∀ p ∈ (daemonStep d e).1.runtime.portfolio.positions, FitsI32 p.quantity := by
  rcases step_cases d e with ⟨same, -⟩ | ⟨pricing, refreshed, -⟩ | ⟨product, t, fill, written, booked⟩
  · rw [same]
    exact kept
  · rw [refreshed]
    intro p member
    obtain ⟨old, held, rfl⟩ := List.mem_map.mp member
    rw [(refreshPosition_kept _ _ _ old).2.2]
    exact kept old held
  · obtain ⟨whole, sums⟩ := fits _ booked
    rw [written]
    exact booked_fits maps kept product t fill whole sums

theorem run_fits (maps : Maps d.runtime.portfolio.index d.runtime.portfolio.positions)
    (kept : ∀ p ∈ d.runtime.portfolio.positions, FitsI32 p.quantity) {events : List DaemonEvent}
    (along : Machine.Along daemonStep BookingFits d events) :
    ∀ p ∈ (Machine.after daemonStep d events).runtime.portfolio.positions, FitsI32 p.quantity :=
  (Machine.reached (fun d : DaemonState => Maps d.runtime.portfolio.index d.runtime.portfolio.positions ∧
    ∀ p ∈ d.runtime.portfolio.positions, FitsI32 p.quantity)
    (fun _ e fits held => ⟨(step_books held.1 e).1, step_fits held.1 held.2 fits⟩) ⟨maps, kept⟩ along).2

theorem run_quantity (maps : Maps d.runtime.portfolio.index d.runtime.portfolio.positions) (events : List DaemonEvent)
    (key : PositionKey) :
    quantityHeld (Machine.after daemonStep d events).runtime.portfolio.positions key =
      quantityHeld d.runtime.portfolio.positions key + Register.total Prod.fst Prod.snd (bookings d events) key := by
  induction events generalizing d with
  | nil => exact (add_zero _).symm
  | cons e rest next =>
    obtain ⟨kept, added⟩ := step_books maps e
    rw [Machine.after, next kept, added, bookings, Register.total_append, add_assoc]

end Books

section Fills

def fillOf : DaemonEvent → Option Fill
  | .fill fill _ _ => some fill
  | _ => none

-- A booking is of one fill, and no fill is booked twice.
theorem bookings_fills (d : DaemonState) (events : List DaemonEvent) :
    ((bookings d events).map Prod.snd).Sublist ((events.filterMap fillOf).map qtySigned) := by
  induction events generalizing d with
  | nil => exact .slnil
  | cons e rest next =>
    have later := next (daemonStep d e).1
    rw [bookings, List.map_append]
    cases e with
    | fill fill now book =>
      rw [List.filterMap_cons_some (f := fillOf) rfl, List.map_cons]
      simp only [booking]
      split
      · exact later.cons _
      · cases matchedOption d.runtime fill.instrumentId with
        | none => exact later.cons _
        | some found => exact later.cons_cons _
    | _ => exact later

theorem pumped_front (turns : List Turn) (fills : List Fill) :
    (pumpedEvents turns fills).filterMap fillOf <+: fills := by
  induction turns generalizing fills with
  | nil => exact List.nil_prefix
  | cons turn rest next =>
    cases turn with
    | other event quiet =>
      have silent : fillOf event = none := by
        cases event with
        | fill fill now book => cases quiet
        | _ => rfl
      rw [pumpedEvents, List.filterMap_cons_none silent]
      exact next fills
    | pump now book =>
      cases fills with
      | nil => exact next []
      | cons fill fills =>
        rw [pumpedEvents, List.filterMap_cons_some (f := fillOf) rfl]
        exact (List.prefix_cons_inj fill).mpr (next fills)

end Fills

-- The frames before the boot count by the positions they leave open, those after it by
-- their fills.
structure BookFollows (chrono : Chrono) (registry : ProductRegistry) (messages : List PositionMsg) (d : DaemonState)
    (events : List DaemonEvent) (sent : List Fill) : Prop where
  quantity : ∀ key, quantityHeld (Machine.after daemonStep d events).runtime.portfolio.positions key =
    openQuantity chrono registry messages key + Register.total Prod.fst Prod.snd (bookings d events) key
  fits : ∀ p ∈ (Machine.after daemonStep d events).runtime.portfolio.positions, FitsI32 p.quantity
  fills : ((bookings d events).map Prod.snd).Sublist (sent.map qtySigned)
  books : ∀ past fill now book later, events = past ++ .fill fill now book :: later →
    BooksFill (Machine.after daemonStep d past).runtime fill
      (booking (Machine.after daemonStep d past) (.fill fill now book))

theorem book_follows (chrono : Chrono) (publisher : Bool) (r : Runtime) (earlier later : List AdapterEvent)
    (turns : List Turn) (rows : List BrokerApi.Position)
    (order : rows.Perm (Machine.after (adapterStep chrono publisher) .default earlier).positionList)
    (fits : Machine.Along daemonStep BookingFits (.start (booted r rows))
      (daemonEvents chrono publisher (Machine.after (adapterStep chrono publisher) .default earlier) later turns)) :
    let s := Machine.after (adapterStep chrono publisher) .default earlier
    BookFollows chrono r.portfolio.registry (earlier.filterMap positionMessage) (.start (booted r rows))
      (daemonEvents chrono publisher s later turns)
      (broadcastFills (Machine.emitted (adapterStep chrono publisher) s later)) := by
  intro s
  have cached : rows.Perm (openPositions chrono (earlier.filterMap positionMessage)) := by
    refine order.trans ?_
    rw [BrokerState.positionList, adapter_positions]
    exact positionList_open _
  have maps := indexOf_maps (booted r rows).portfolio.positions
  constructor
  · intro key
    rw [← seeded_quantity cached r key]
    exact run_quantity (d := .start (booted r rows)) maps _ key
  · exact run_fits maps (seeded_fits cached r) fits
  · have handled := (pumped_front turns (broadcastFills (Machine.emitted (adapterStep chrono publisher) s later))).sublist
    exact (bookings_fills (.start (booted r rows)) _).trans (handled.map qtySigned)
  · exact fun past fill now book _ _ => booking_fill _ fill now book

section Held

def positionFrame : Frame :=
  ["61", "3", "DU1", "900", "HG", "FOP", "20260626", "6", "C", "25000", "COMEX", "USD", "HXEM6 C6", "HXE", "2", "1250"]

def juneDates : Chrono := ⟨fun _ _ => some june26⟩

end Held

-- Two held at boot and one bought since.
theorem boot_and_fill :
    quantityHeld (Machine.after daemonStep
        (.start (booted oneOption.runtime
          (Machine.after (adapterStep juneDates false) .default [.frame 1 positionFrame]).positionList))
        (daemonEvents juneDates false (Machine.after (adapterStep juneDates false) .default [.frame 1 positionFrame])
          [.frame 2 (executionFrame "-1")] [.pump 1 noBook])).runtime.portfolio.positions
      (makeKey "HG" 6 june26 .call) = 3 := by
  have follows := (book_follows juneDates false oneOption.runtime [.frame 1 positionFrame]
    [.frame 2 (executionFrame "-1")] [.pump 1 noBook] _ (List.Perm.refl _) (by decide +kernel)).quantity
    (makeKey "HG" 6 june26 .call)
  rw [follows]
  decide +kernel

end Corsair.Daemon
