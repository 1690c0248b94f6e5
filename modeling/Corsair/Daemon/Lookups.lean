import Corsair.Daemon.Ipc
import Corsair.Lib.Inverse

namespace Corsair.Daemon

open BrokerApi MarketData

-- state.rs, what `option_meta` answers.
structure OptionMeta where
  product : String
  strike : ℚ
  expiry : NaiveDate
  right : Right
  deriving DecidableEq

def OptionMeta.of (found : String × OptionTick) : OptionMeta :=
  ⟨found.1, found.2.strike, found.2.expiry, found.2.right⟩

def OptionMeta.key (m : OptionMeta) : OptionKey := optionKey m.product m.strike m.expiry m.right

def routedTo (md : MarketDataState) (id : InstrumentId) : Option (String × OptionTick) :=
  (md.byInstrument.get id).bind fun k => (md.options.get k).map (k.product, ·)

-- The scan of handle_fill and handle_place. Both the products and the options come out of
-- a hash map, in an order of its own.
def scan (items : List (OptionKey × OptionTick)) (products : List String) (id : InstrumentId) :
    Option (String × OptionTick) :=
  products.findSome? fun prod =>
    (((items.filter (·.1.product = prod)).map (·.2)).find? (·.instrumentId = some id)).map (prod, ·)

theorem optionMeta_routed (md : MarketDataState) (id : InstrumentId) :
    optionMeta md id = (routedTo md id).map (·.2) := by
  unfold optionMeta routedTo
  cases md.byInstrument.get id with
  | none => rfl
  | some k => cases held : md.options.get k <;> simp [held]

-- In every iteration order the scan finds for a registered id what its ticks are routed to.
structure LookupsAgree (registry : List String) (md : MarketDataState) : Prop where
  same : ∀ id, (md.byInstrument.get id).isSome → ∀ items products, items.Perm md.options.items →
    products.Perm registry → (scan items products id).map OptionMeta.of = (routedTo md id).map OptionMeta.of
  known : ∀ id, (optionMeta md id).isSome → ∀ items products, items.Perm md.options.items →
    products.Perm registry → (scan items products id).isSome

inductive MarketInput where
  | registerOption (product : String) (strike : ℚ) (expiry : NaiveDate) (right : Right) (id : InstrumentId)
  | registerUnderlying (product : String) (id : InstrumentId)
  | setUnderlying (product : String) (price : ℚ)
  | updateBid (id : InstrumentId) (price : ℚ) (size tsNs : ℕ)
  | updateAsk (id : InstrumentId) (price : ℚ) (size tsNs : ℕ)
  | updateLast (id : InstrumentId) (price : ℚ) (tsNs : ℕ)

def marketStep (md : MarketDataState) : MarketInput → MarketDataState × List Unit
  | .registerOption product strike expiry right id => (md.registerOption product strike expiry right id, [])
  | .registerUnderlying product id => (md.registerUnderlying product id, [])
  | .setUnderlying product price => (md.setUnderlying product price, [])
  | .updateBid id price size tsNs => (md.updateBid id price size tsNs, [])
  | .updateAsk id price size tsNs => (md.updateAsk id price size tsNs, [])
  | .updateLast id price tsNs => (md.updateLast id price tsNs, [])

-- A contract that is there is registered under the id it has, and a new one under an id
-- that has no contract.
def RegistersFresh (registry : List String) (md : MarketDataState) : MarketInput → Prop
  | .registerOption product strike expiry right id => product ∈ registry ∧
      match md.options.get (optionKey product strike expiry right) with
      | some t => t.instrumentId = some id
      | none => md.byInstrument.get id = none
  | _ => True

section Scan

variable {items : List (OptionKey × OptionTick)} {products : List String} {id : InstrumentId}

theorem scan_held {found : String × OptionTick} (hit : scan items products id = some found) :
    found.1 ∈ products ∧ ∃ k, (k, found.2) ∈ items ∧ k.product = found.1 ∧ found.2.instrumentId = some id := by
  obtain ⟨prod, listed, first⟩ := List.exists_of_findSome?_eq_some hit
  obtain ⟨t, taken, rfl⟩ := Option.map_eq_some_iff.mp first
  obtain ⟨entry, member, rfl⟩ := List.mem_map.mp (List.mem_of_find?_eq_some taken)
  obtain ⟨held, own⟩ := List.mem_filter.mp member
  have carries := List.find?_some taken
  exact ⟨listed, entry.1, held, of_decide_eq_true own, by simpa using carries⟩

theorem scan_some {k : OptionKey} {t : OptionTick} (held : (k, t) ∈ items) (listed : k.product ∈ products)
    (own : t.instrumentId = some id) : (scan items products id).isSome := by
  refine List.findSome?_isSome_iff.mpr ⟨k.product, listed, ?_⟩
  rw [Option.isSome_map, List.find?_isSome]
  refine ⟨t, List.mem_map.mpr ⟨(k, t), List.mem_filter.mpr ⟨held, by simp⟩, rfl⟩, by simpa using own⟩

-- Whichever record has the id, some order of the two maps brings it up first.
theorem scan_first {k : OptionKey} {t : OptionTick} (held : (k, t) ∈ items) (listed : k.product ∈ products)
    (own : t.instrumentId = some id) :
    ∃ items' products', items'.Perm items ∧ products'.Perm products ∧
      scan items' products' id = some (k.product, t) := by
  refine ⟨(k, t) :: items.erase (k, t), k.product :: products.erase k.product, (List.perm_cons_erase held).symm,
    (List.perm_cons_erase listed).symm, ?_⟩
  simp [scan, own]

end Scan

-- The id inside each record.
def recordId (md : MarketDataState) (k : OptionKey) : Option InstrumentId := (md.options.get k).bind (·.instrumentId)

structure Indexed (registry : List String) (md : MarketDataState) : Prop where
  inverse : PartialInverse (recordId md) md.byInstrument.get
  keyed : ∀ k t, md.options.get k = some t →
    k.product ∈ registry ∧ k = optionKey k.product t.strike t.expiry t.right ∧ t.instrumentId.isSome

section Indexed

variable {registry : List String} {md : MarketDataState}

theorem indexed_new (registry : List String) : Indexed registry .new := by
  refine ⟨?_, ?_⟩
  · intro k id
    simp [recordId, MarketDataState.new]
  · intro k t held
    simp [MarketDataState.new] at held

theorem routed_held (indexed : Indexed registry md) {id : InstrumentId} {k : OptionKey}
    (mapped : md.byInstrument.get id = some k) :
    ∃ t, md.options.get k = some t ∧ t.instrumentId = some id ∧ routedTo md id = some (k.product, t) := by
  obtain ⟨t, held, own⟩ := Option.bind_eq_some_iff.mp ((indexed.inverse k id).mp mapped)
  refine ⟨t, held, own, ?_⟩
  simp [routedTo, mapped, held]

theorem indexed_agree (indexed : Indexed registry md) : LookupsAgree registry md := by
  have finds : ∀ id, (md.byInstrument.get id).isSome → ∀ items products, items.Perm md.options.items →
      products.Perm registry → scan items products id = routedTo md id := by
    intro id registered items products itemsPerm productsPerm
    obtain ⟨k, mapped⟩ := Option.isSome_iff_exists.mp registered
    obtain ⟨t, held, own, routed⟩ := routed_held indexed mapped
    have there : (k, t) ∈ items := itemsPerm.mem_iff.mpr (HashMap.mem_items.mpr held)
    have listed : k.product ∈ products := productsPerm.mem_iff.mpr (indexed.keyed k t held).1
    obtain ⟨found, hit⟩ := Option.isSome_iff_exists.mp (scan_some there listed own)
    obtain ⟨-, other, member, product, carries⟩ := scan_held hit
    have record := HashMap.mem_items.mp (itemsPerm.mem_iff.mp member)
    have only := (indexed.inverse other id).mpr (by simp [recordId, record, carries])
    rw [mapped] at only
    cases only
    rw [record] at held
    cases held
    rw [hit, routed, product]
  constructor
  case same =>
    intro id registered items products itemsPerm productsPerm
    rw [finds id registered items products itemsPerm productsPerm]
  case known =>
    intro id routed items products itemsPerm productsPerm
    rw [optionMeta_routed, Option.isSome_map] at routed
    have registered : (md.byInstrument.get id).isSome := by
      unfold routedTo at routed
      cases mapped : md.byInstrument.get id with
      | none => simp [mapped] at routed
      | some k => rfl
    rw [finds id registered items products itemsPerm productsPerm]
    exact routed

-- A registration against the two indexes: of a contract that is there only the map changes.
theorem register_present {product : String} {strike : ℚ} {expiry : NaiveDate} {right : Right} (id : InstrumentId)
    {t : OptionTick} (held : md.options.get (optionKey product strike expiry right) = some t) :
    (md.registerOption product strike expiry right id).options = md.options := by
  simp only [MarketDataState.registerOption, held]

theorem register_absent {product : String} {strike : ℚ} {expiry : NaiveDate} {right : Right} (id : InstrumentId)
    (missing : md.options.get (optionKey product strike expiry right) = none) :
    (md.registerOption product strike expiry right id).options =
      md.options.set (optionKey product strike expiry right)
        { OptionTick.new strike expiry right with instrumentId := some id } := by
  simp only [MarketDataState.registerOption, missing]

theorem register_mapped (product : String) (strike : ℚ) (expiry : NaiveDate) (right : Right) (id : InstrumentId) :
    (md.registerOption product strike expiry right id).byInstrument.get =
      Function.update md.byInstrument.get id (some (optionKey product strike expiry right)) :=
  HashMap.get_set_update ..

theorem recordId_set (k : OptionKey) (t : OptionTick) (s : MarketDataState)
    (set : s.options = md.options.set k t) : recordId s = Function.update (recordId md) k t.instrumentId := by
  have through : recordId s = (fun record : Option OptionTick => record.bind (·.instrumentId)) ∘ s.options.get := rfl
  rw [through, set, HashMap.get_set_update, Function.comp_update]
  rfl

theorem unnamed (indexed : Indexed registry md) {id : InstrumentId} (free : md.byInstrument.get id = none)
    (k : OptionKey) : recordId md k ≠ some id := by
  intro carries
  rw [(indexed.inverse k id).mpr carries] at free
  cases free

theorem register_indexed (indexed : Indexed registry md) {product : String} {strike : ℚ} {expiry : NaiveDate}
    {right : Right} {id : InstrumentId}
    (fresh : RegistersFresh registry md (.registerOption product strike expiry right id)) :
    Indexed registry (md.registerOption product strike expiry right id) := by
  obtain ⟨listed, free⟩ := fresh
  cases held : md.options.get (optionKey product strike expiry right) with
  | some t =>
    rw [held] at free
    have options := register_present id held
    have carries : recordId md (optionKey product strike expiry right) = some id := by
      rw [recordId, held]
      exact free
    constructor
    case inverse =>
      have same : recordId (md.registerOption product strike expiry right id) = recordId md := by
        unfold recordId
        rw [options]
      rw [same, register_mapped, ← (indexed.inverse _ _).mpr carries, Function.update_eq_self]
      exact indexed.inverse
    case keyed =>
      rw [options]
      exact indexed.keyed
  | none =>
    rw [held] at free
    have options := register_absent id held
    constructor
    case inverse =>
      rw [recordId_set _ _ _ options, register_mapped, indexed.inverse.link_iff]
      refine ⟨?_, fun other carries => absurd carries (unnamed indexed free other)⟩
      intro other had
      rw [recordId, held] at had
      cases had
    case keyed =>
      intro k t record
      rw [options, HashMap.get_set] at record
      split at record
      · rename_i own
        cases record
        rw [own]
        exact ⟨listed, rfl, rfl⟩
      · exact indexed.keyed k t record

theorem keyed_apart (indexed : Indexed registry md) {k other : OptionKey} {t u : OptionTick}
    (held : md.options.get k = some t) (record : md.options.get other = some u)
    (same : OptionMeta.of (k.product, t) = OptionMeta.of (other.product, u)) : k = other := by
  rw [(indexed.keyed k t held).2.1, (indexed.keyed other u record).2.1]
  exact congrArg OptionMeta.key same

-- A registration after which the two lookups agree was one of the fresh ones: first of a
-- record that exists, then of a new one.
theorem agree_present (indexed : Indexed registry md) {product : String} {strike : ℚ} {expiry : NaiveDate}
    {right : Right} {id : InstrumentId} {t : OptionTick}
    (held : md.options.get (optionKey product strike expiry right) = some t)
    (agree : LookupsAgree registry (md.registerOption product strike expiry right id)) :
    product ∈ registry ∧ t.instrumentId = some id := by
  have options := register_present id held
  have mapped : (md.registerOption product strike expiry right id).byInstrument.get id =
      some (optionKey product strike expiry right) := by
    rw [register_mapped, Function.update_self]
  have routed : routedTo (md.registerOption product strike expiry right id) id = some (product, t) := by
    rw [routedTo, mapped, Option.bind_some, options, held]
    rfl
  have matched := agree.same id (by rw [mapped]; rfl) _ _ (List.Perm.refl _) (List.Perm.refl _)
  rw [routed, Option.map_some] at matched
  obtain ⟨found, hit, same⟩ := Option.map_eq_some_iff.mp matched
  obtain ⟨listed, k, member, own, carries⟩ := scan_held hit
  rw [options] at member
  have record := HashMap.mem_items.mp member
  have key : k = optionKey product strike expiry right := by
    refine keyed_apart indexed record held ?_
    rw [own]
    exact same
  rw [key, held] at record
  cases record
  have named : found.1 = product := congrArg OptionMeta.product same
  exact ⟨named ▸ listed, carries⟩

theorem agree_absent (indexed : Indexed registry md) {product : String} {strike : ℚ} {expiry : NaiveDate}
    {right : Right} {id : InstrumentId} (held : md.options.get (optionKey product strike expiry right) = none)
    (agree : LookupsAgree registry (md.registerOption product strike expiry right id)) :
    product ∈ registry ∧ md.byInstrument.get id = none := by
  have options := register_absent id held
  have mapped : (md.registerOption product strike expiry right id).byInstrument.get id =
      some (optionKey product strike expiry right) := by
    rw [register_mapped, Function.update_self]
  have routed : routedTo (md.registerOption product strike expiry right id) id =
      some (product, { OptionTick.new strike expiry right with instrumentId := some id }) := by
    rw [routedTo, mapped, Option.bind_some, options, HashMap.get_set, if_pos rfl]
    rfl
  have finds := agree.same id (by rw [mapped]; rfl)
  have matched := finds _ _ (List.Perm.refl _) (List.Perm.refl _)
  rw [routed, Option.map_some] at matched
  obtain ⟨found, hit, same⟩ := Option.map_eq_some_iff.mp matched
  have named : found.1 = product := congrArg OptionMeta.product same
  refine ⟨named ▸ (scan_held hit).1, ?_⟩
  cases other : md.byInstrument.get id with
  | none => rfl
  | some k =>
    -- The id had a record already; a scan that meets it first shows the other one.
    obtain ⟨t, record, carries, -⟩ := routed_held indexed other
    have apart : k ≠ optionKey product strike expiry right := by
      rintro rfl
      rw [held] at record
      cases record
    have stays : (md.registerOption product strike expiry right id).options.get k = some t := by
      rw [options, HashMap.get_set, if_neg apart]
      exact record
    obtain ⟨items, products, itemsPerm, productsPerm, first⟩ :=
      scan_first (HashMap.mem_items.mpr stays) (indexed.keyed k t record).1 carries
    have wrong := finds items products itemsPerm productsPerm
    rw [first, routed, Option.map_some, Option.map_some, Option.some.injEq] at wrong
    have key : k = optionKey product strike expiry right := by
      rw [(indexed.keyed k t record).2.1]
      exact congrArg OptionMeta.key wrong
    exact absurd key apart

theorem agree_fresh (indexed : Indexed registry md) {product : String} {strike : ℚ} {expiry : NaiveDate}
    {right : Right} {id : InstrumentId}
    (agree : LookupsAgree registry (md.registerOption product strike expiry right id)) :
    RegistersFresh registry md (.registerOption product strike expiry right id) := by
  cases held : md.options.get (optionKey product strike expiry right) with
  | some t =>
    obtain ⟨listed, carries⟩ := agree_present indexed held agree
    refine ⟨listed, ?_⟩
    rw [held]
    exact carries
  | none =>
    obtain ⟨listed, free⟩ := agree_absent indexed held agree
    refine ⟨listed, ?_⟩
    rw [held]
    exact free

end Indexed

section Updates

variable {registry : List String} {md : MarketDataState}

theorem updateOption_indexed (indexed : Indexed registry md) (k : OptionKey) {f : OptionTick → OptionTick}
    (keeps : ∀ t, (f t).instrumentId = t.instrumentId ∧ (f t).strike = t.strike ∧ (f t).expiry = t.expiry ∧
      (f t).right = t.right) : Indexed registry (md.updateOption k f) := by
  have record : ∀ other, (md.updateOption k f).options.get other =
      if other = k then (md.options.get other).map f else md.options.get other := by
    intro other
    rw [MarketDataState.updateOption, HashMap.get_modify]
    split
    · rename_i own
      rw [own]
    · rfl
  have same : recordId (md.updateOption k f) = recordId md := by
    funext other
    rw [recordId, recordId, record]
    split
    · cases md.options.get other with
      | none => rfl
      | some t => exact (keeps t).1
    · rfl
  constructor
  case inverse =>
    rw [same]
    exact indexed.inverse
  case keyed =>
    intro other t held
    rw [record] at held
    split at held
    · obtain ⟨u, before, rfl⟩ := Option.map_eq_some_iff.mp held
      obtain ⟨sameId, sameStrike, sameExpiry, sameRight⟩ := keeps u
      rw [sameId, sameStrike, sameExpiry, sameRight]
      exact indexed.keyed other u before
    · exact indexed.keyed other t held

theorem updateUnderlying_indexed (indexed : Indexed registry md) (id : InstrumentId) (price : ℚ) :
    Indexed registry (md.updateUnderlying id price) := by
  unfold MarketDataState.updateUnderlying MarketDataState.setUnderlying
  split
  · split
    · exact ⟨indexed.inverse, indexed.keyed⟩
    · exact indexed
  · exact indexed

theorem step_indexed (indexed : Indexed registry md) (input : MarketInput) (fresh : RegistersFresh registry md input) :
    Indexed registry (marketStep md input).1 := by
  cases input with
  | registerOption product strike expiry right id => exact register_indexed indexed fresh
  | registerUnderlying product id => exact ⟨indexed.inverse, indexed.keyed⟩
  | setUnderlying product price =>
    simp only [marketStep, MarketDataState.setUnderlying]
    split
    · exact ⟨indexed.inverse, indexed.keyed⟩
    · exact indexed
  | updateBid id price size tsNs =>
    simp only [marketStep, MarketDataState.updateBid]
    split
    · exact updateOption_indexed indexed _ fun t => ⟨rfl, rfl, rfl, rfl⟩
    · exact updateUnderlying_indexed indexed id price
  | updateAsk id price size tsNs =>
    simp only [marketStep, MarketDataState.updateAsk]
    split
    · exact updateOption_indexed indexed _ fun t => ⟨rfl, rfl, rfl, rfl⟩
    · exact indexed
  | updateLast id price tsNs =>
    simp only [marketStep, MarketDataState.updateLast]
    split
    · exact updateOption_indexed indexed _ fun t => ⟨rfl, rfl, rfl, rfl⟩
    · exact updateUnderlying_indexed indexed id price

theorem step_agree (indexed : Indexed registry md) (input : MarketInput)
    (agree : LookupsAgree registry (marketStep md input).1) : RegistersFresh registry md input := by
  cases input with
  | registerOption product strike expiry right id => exact agree_fresh indexed agree
  | _ => trivial

end Updates

-- The id of contract ("HG", 6) changes from 900 to 901: the ticks of 901 are routed, and a
-- fill on it is of no option.
def requalified : List MarketInput :=
  [.registerOption "HG" 6 (.epoch) .call 900, .registerOption "HG" 6 (.epoch) .call 901]

theorem requalified_unknown :
    ¬LookupsAgree ["HG"] (Machine.after marketStep .new requalified) := by
  intro agree
  have known := agree.known 901 (by decide +kernel) _ _ (List.Perm.refl _) (List.Perm.refl _)
  revert known
  decide +kernel

theorem lookups_agree_iff (registry : List String) (inputs : List MarketInput) :
    (∀ past, past <+: inputs → LookupsAgree registry (Machine.after marketStep .new past)) ↔
      Machine.Along marketStep (RegistersFresh registry) .new inputs := by
  refine Machine.along_exact (Indexed registry) (LookupsAgree registry) ?_ ?_ ?_ (indexed_new registry) inputs
  · exact fun md indexed => indexed_agree indexed
  · exact fun md input fresh indexed => step_indexed indexed input fresh
  · exact fun md input indexed agree => step_agree indexed input agree

end Corsair.Daemon
