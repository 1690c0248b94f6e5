import Corsair.Daemon.MarginGate
import Corsair.Native.ContractRequests

namespace Corsair.Daemon

open BrokerApi Native Trader Wire

def accountKey (a : AccountValueMsg) : AccountKey := (a.key, a.currency, a.account)

def reportedValue (a : Arrival) : Option AccountValueMsg :=
  match parseInbound a.frame with
  | .ok (.accountValue value) => some value
  | _ => none

-- The latest value of a name, a currency and an account among the frames.
def latestValue (arrivals : List Arrival) : AccountKey → Option AccountValueMsg :=
  Latest.last accountKey (arrivals.filterMap reportedValue)

def brokerAfter (chrono : Chrono) (publisher : Bool) (arrivals : List Arrival) : BrokerState :=
  Machine.after (arrive chrono publisher) .default arrivals

section Property

-- The configured account, and the currency it is kept in.
variable (account base : String)

def AgreeOnAccount (xs ys : List Arrival) : Prop :=
  ∀ name, (latestValue xs (name, base, account)).map (·.value) = (latestValue ys (name, base, account)).map (·.value)

-- What else the gateway has sent, and the order the map is gone through in, do not show.
def FiguresOfAccount (chrono : Chrono) (publisher : Bool) (xs ys : List Arrival) : Prop :=
  AgreeOnAccount account base xs ys → ∀ rank other,
    accountValues rank (brokerAfter chrono publisher xs) = accountValues other (brokerAfter chrono publisher ys)

-- A figure has a value under its name in some currency and account. Where it has none
-- it stands at the value of no message.
def Stands (arrivals : List Arrival) (figure : Figure) (value : F64) : Prop :=
  (∃ currency owner kept, latestValue arrivals (figure.key, currency, owner) = some kept ∧ value = amount (some kept)) ∨
    (∀ currency owner, latestValue arrivals (figure.key, currency, owner) = none) ∧ value = amount none

def OneValue (xs ys : List Arrival) : Prop :=
  ∀ figure x y, Stands xs figure x → Stands ys figure y → x = y

end Property

section Figures

variable {chrono : Chrono} {publisher : Bool} {arrivals : List Arrival}

theorem arrive_values (s : BrokerState) (a : Arrival) :
    (arrive chrono publisher s a).1.accountValues =
      (reportedValue a).elim s.accountValues fun value => s.accountValues.set (accountKey value) value := by
  unfold arrive dispatch reportedValue
  cases parseInbound a.frame with
  | error e => rfl
  | ok msg =>
    rw [(route_tables chrono a.now publisher s msg).2]
    cases msg <;> rfl

theorem adapter_tracks (arrivals : List Arrival) :
    Latest.Tracks accountKey (arrivals.filterMap reportedValue) (brokerAfter chrono publisher arrivals).accountValues := by
  induction arrivals using List.reverseRecOn with
  | nil => exact Latest.tracks_empty
  | append_singleton past a tracks =>
    unfold brokerAfter at *
    rw [Machine.after_append, List.filterMap_append]
    change Latest.Tracks _ _ (arrive chrono publisher _ a).1.accountValues
    rw [arrive_values]
    cases said : reportedValue a with
    | none => simpa [said] using tracks
    | some value => simpa [said] using Latest.tracks_set tracks value

theorem accountValues_figure (rank : AccountKey → ℕ) (s : BrokerState) (figure : Figure) :
    (accountValues rank s).figure figure =
      amount ((Latest.final (·.1.1 = figure.key) rank s.accountValues).map Prod.snd) :=
  read_figure (iterated rank s) figure

theorem figures_ext {one other : AccountReading} (same : ∀ figure, one.figure figure = other.figure figure) : one = other := by
  cases one
  cases other
  congr
  · exact same .netLiquidation
  · exact same .maintenanceMargin
  · exact same .initialMargin
  · exact same .buyingPower
  · exact same .realizedPnlToday

-- Some order of the map brings each of these values out, and no order another one.
theorem stands_iff {figure : Figure} {value : F64} :
    Stands arrivals figure value ↔
      ∃ rank, (accountValues rank (brokerAfter chrono publisher arrivals)).figure figure = value := by
  have tracks := @adapter_tracks chrono publisher arrivals
  constructor
  · intro stands
    rcases stands with ⟨currency, owner, kept, here, rfl⟩ | ⟨nowhere, rfl⟩
    · have held := (tracks (figure.key, currency, owner)).trans here
      obtain ⟨rank, last⟩ := Latest.exists_final (p := fun entry => entry.1.1 = figure.key) held rfl
      refine ⟨rank, ?_⟩
      rw [accountValues_figure, last]
      rfl
    · refine ⟨fun _ => 0, ?_⟩
      have missed : Latest.final (·.1.1 = figure.key) (fun _ => 0)
          (brokerAfter chrono publisher arrivals).accountValues = none := by
        refine Latest.final_none.mpr ?_
        intro k kept held named
        obtain ⟨name, currency, owner⟩ := k
        obtain rfl : name = figure.key := named
        rw [(tracks _).trans (nowhere currency owner)] at held
        cases held
      rw [accountValues_figure, missed]
      rfl
  · intro given
    obtain ⟨rank, rfl⟩ := given
    rw [accountValues_figure]
    cases found : Latest.final (·.1.1 = figure.key) rank (brokerAfter chrono publisher arrivals).accountValues with
    | some entry =>
      obtain ⟨⟨name, currency, owner⟩, kept⟩ := entry
      obtain ⟨held, named⟩ := Latest.final_held found
      obtain rfl : name = figure.key := named
      exact .inl ⟨currency, owner, kept, (tracks _).symm.trans held, rfl⟩
    | none =>
      refine .inr ⟨?_, rfl⟩
      intro currency owner
      cases here : latestValue arrivals (figure.key, currency, owner) with
      | none => rfl
      | some kept => exact absurd rfl (Latest.final_none.mp found _ kept ((tracks _).trans here))

end Figures

theorem figures_of_account_iff (account base : String) (chrono : Chrono) (publisher : Bool) (xs ys : List Arrival) :
    FiguresOfAccount account base chrono publisher xs ys ↔ (AgreeOnAccount account base xs ys → OneValue xs ys) := by
  refine imp_congr_right ?_
  intro _
  constructor
  · intro same figure x y in_xs in_ys
    obtain ⟨rank, rfl⟩ := (@stands_iff chrono publisher xs figure x).mp in_xs
    obtain ⟨other, rfl⟩ := (@stands_iff chrono publisher ys figure y).mp in_ys
    exact congrArg (·.figure figure) (same rank other)
  · intro one rank other
    apply figures_ext
    intro figure
    exact one figure _ _ (stands_iff.mpr ⟨rank, rfl⟩) (stands_iff.mpr ⟨other, rfl⟩)

section Streams

def valueFrame (key value currency account : String) : Frame := ["6", "2", key, value, currency, account]

def dollars : Arrival := ⟨0, valueFrame "RealizedPnL" "-6000" "USD" "DU1"⟩
def euros : Arrival := ⟨0, valueFrame "RealizedPnL" "0" "EUR" "DU1"⟩

end Streams

-- The account's loss in dollars is 6000 in both. The euros after it cover it.
theorem other_currency_read : ¬FiguresOfAccount "DU1" "USD" noDates false [dollars] [dollars, euros] := by
  intro same
  have agree : AgreeOnAccount "DU1" "USD" [dollars] [dollars, euros] := by
    intro name
    have said : [euros].filterMap reportedValue = [⟨"RealizedPnL", "0", "EUR", "DU1"⟩] := by decide +kernel
    have both : [dollars, euros] = [dollars] ++ [euros] := rfl
    unfold latestValue
    rw [both, List.filterMap_append, said, Latest.last_concat, if_neg]
    simp [accountKey]
  have reading := same agree (fun _ => 0) fun key => if key.2.1 = "EUR" then 1 else 0
  exact absurd (congrArg (·.realizedPnlToday) reading) (by decide +kernel)

end Corsair.Daemon
