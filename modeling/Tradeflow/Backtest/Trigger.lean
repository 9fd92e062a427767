/-
  When a trigger fires. A schedule keeps its own clock; the other kinds look at the price of a token now
  and at the tick before, or at the worth of the ledger.
-/
import Tradeflow.Backtest.Ledger
import Tradeflow.Backtest.Plan
import Tradeflow.Performance.Metrics

namespace Tradeflow

namespace Trigger

variable {R : Type} [Scalar R]

/-- The seconds between firings of a schedule that does not give them. -/
def usualInterval : R := Scalar.nat 86400

/-- Is a schedule due? Its first tick always is. -/
def due (interval : R) (last : Option Instant) (now : Instant) : Bool :=
  match last with
  | none => true
  | some t => Scalar.atMost interval (Performance.seconds (now.micros - t.micros))

/-- Does the price lie beyond the threshold, or has it just crossed it? -/
def thresholdHolds (direction : Option Json) (threshold price : R) (previous : Option R) : Bool :=
  if Setting.isWord "above" "above" direction then Scalar.less threshold price
  else if Setting.isWord "above" "below" direction then Scalar.less price threshold
  else if Setting.isWord "above" "cross" direction then
    match previous with
    | some p => Scalar.negative ((p - threshold) * (price - threshold))
    | none => false
  else false

/-- Has the price changed by the percentage since the tick before? -/
def changeHolds (direction : Option Json) (percentage price : R) (previous : Option R) : Bool :=
  match previous with
  | none => false
  | some p =>
    if Scalar.isZero p then false
    else
      let change := (price - p) / p * Scalar.nat 100
      if Setting.isWord "any" "up" direction then Scalar.atMost percentage change
      else if Setting.isWord "any" "down" direction then Scalar.atMost percentage (-change)
      else Scalar.atMost percentage (Scalar.size change)

/-- What a trigger sees at a tick. -/
structure View (R : Type) where
  defaults : Assoc Float
  tick : PriceTick R
  previous : Assoc R
  ledger : Ledger R

/-- Does a trigger that is no schedule fire? -/
def holds (v : View R) (b : Block) (kind : TriggerKind) : Except Fault Bool :=
  let token := Setting.textOr "TON" (b.setting? "token")
  let price := v.tick.priceOf v.defaults token
  let previous := Assoc.get? v.previous token
  match kind with
  | .priceThreshold =>
    match Setting.number (b.setting? "threshold") with
    | .error e => .error e
    | .ok none => .ok false
    | .ok (some threshold) =>
      .ok (thresholdHolds (b.setting? "direction") threshold price previous)
  | .priceChange =>
    match Setting.number (b.setting? "percentage") with
    | .error e => .error e
    | .ok none => .ok false
    | .ok (some percentage) => .ok (changeHolds (b.setting? "direction") percentage price previous)
  | .portfolio =>
    if Setting.isWordOrMissing "total_value" "total_value" (b.setting? "metric") then
      match Setting.number (b.setting? "value") with
      | .error e => .error e
      | .ok none => .ok false
      | .ok (some value) =>
        let equity := v.ledger.equity v.defaults v.tick
        .ok (if Setting.isWordOrMissing "above" "above" (b.setting? "condition") then
          Scalar.less value equity else Scalar.less equity value)
    else .ok false
  | _ => .ok false

/-- The last firing of each schedule, by block id. -/
abbrev Clocks := Assoc Instant

/-- Does a trigger fire? A schedule that does sets its clock. -/
def fires (v : View R) (clocks : Clocks) (b : Block) (kind : TriggerKind) :
    Except Fault (Bool × Clocks) :=
  match kind with
  | .schedule =>
    match Setting.numberOr (usualInterval : R) (b.setting? "interval") with
    | .error e => .error e
    | .ok interval =>
      if due interval (Assoc.get? clocks b.id) v.tick.timestamp then
        .ok (true, Assoc.set clocks b.id v.tick.timestamp)
      else .ok (false, clocks)
  | _ => (holds v b kind).map (·, clocks)

/-- Does any trigger fire? Every one is asked, so that each schedule keeps its clock. -/
def anyFires (v : View R) : Clocks → List (Block × TriggerKind) → Except Fault (Bool × Clocks)
  | clocks, [] => .ok (false, clocks)
  | clocks, (b, kind) :: rest =>
    match fires v clocks b kind with
    | .error e => .error e
    | .ok (fired, clocks) =>
      match anyFires v clocks rest with
      | .error e => .error e
      | .ok (more, clocks) => .ok (fired || more, clocks)

end Trigger

end Tradeflow
