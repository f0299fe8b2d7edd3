import RemoteDeviceConsole.Loadgen.Connect

/-!
# The options of the load generator

`parse_options` over the arguments behind the program's name, with `std::stoi`, and the
integers that the run computes from the options: the size that it reserves for the
latencies, the length of the test in milliseconds and the port of the sockets.

`parse_options` checks that three of the numbers are positive.  `InRange` is what else it
leaves: every number is an `int`.  `exactComputations_iff` says for which of the accepted
options the computations are exact: the product of rate and duration is multiplied as `int`s
before it is converted, and any `int` is taken for a port.
-/

namespace RemoteDeviceConsole
namespace Loadgen

open Framing

/-! ## Numbers -/

/-- What `parse_options` throws: a text of its own, or an exception of `std::stoi`. -/
inductive OptionError where
  | runtimeError (what : Bytes)
  | invalidArgument
  | outOfRange
  deriving DecidableEq

/-- `std::isspace`. -/
def isSpace (b : UInt8) : Bool := b = space || 9 ≤ b && b ≤ 13

/-- `std::stoi`: white space, a sign, the longest digit string.  What follows is ignored. -/
def stoi (text : Bytes) : Except OptionError ℤ :=
  let text := text.dropWhile isSpace
  let negative : Bool := text.head? = some minusSign
  let text := if negative ∨ text.head? = some plusSign then text.tail else text
  let digits := text.takeWhile isDigit
  let number : ℤ := if negative then -(digitsValue digits) else digitsValue digits
  if digits = [] then .error .invalidArgument
  else if -2 ^ 31 ≤ number ∧ number < 2 ^ 31 then .ok number
  else .error .outOfRange

/-! ## Arguments -/

/-- `Options{}`. -/
def Options.default : Options where
  host := ascii "127.0.0.1"
  port := 5000
  connections := 100
  ratePerSecond := 100
  durationSeconds := 10

/-- What an option does with its value. -/
def setOption (arg : Bytes) : Option (Options → Bytes → Except OptionError Options) :=
  if arg = ascii "--host" then some fun options value => .ok { options with host := value }
  else if arg = ascii "--port" then
    some fun options value => (stoi value).map fun n => { options with port := n }
  else if arg = ascii "--connections" then
    some fun options value => (stoi value).map fun n => { options with connections := n }
  else if arg = ascii "--rate" then
    some fun options value => (stoi value).map fun n => { options with ratePerSecond := n }
  else if arg = ascii "--duration" then
    some fun options value => (stoi value).map fun n => { options with durationSeconds := n }
  else none

/-- The loop over the arguments. -/
def parseArgs : List Bytes → Options → Except OptionError Options
  | [], options => .ok options
  | arg :: rest, options =>
    match setOption arg with
    | none => .error (.runtimeError (ascii "unknown option: " ++ arg))
    | some set =>
      match rest with
      | [] => .error (.runtimeError (ascii "missing value for " ++ arg))
      | value :: rest =>
        match set options value with
        | .error e => .error e
        | .ok options => parseArgs rest options

/-- `parse_options`. -/
def parseOptions (args : List Bytes) : Except OptionError Options :=
  match parseArgs args .default with
  | .error e => .error e
  | .ok options =>
    if options.connections ≤ 0 then
      .error (.runtimeError (ascii "--connections must be positive"))
    else if options.ratePerSecond ≤ 0 then
      .error (.runtimeError (ascii "--rate must be positive"))
    else if options.durationSeconds ≤ 0 then
      .error (.runtimeError (ascii "--duration must be positive"))
    else .ok options

/-! ## What the run computes from the options -/

/-- The product of two `int`s; it is not defined when it is no `int`. -/
def mulInt (a b : ℤ) : Option ℤ := if -2 ^ 31 ≤ a * b ∧ a * b < 2 ^ 31 then some (a * b) else none

/-- The size that is reserved for the latencies: an `int` product, converted to `size_t`. -/
def reservedSize (options : Options) : Option UInt64 :=
  (mulInt options.ratePerSecond options.durationSeconds).map UInt64.ofInt

/-- The length of the test, in `test_end_ms`. -/
def testLengthMs (options : Options) : UInt64 := UInt64.ofInt options.durationSeconds * 1000

/-- The port that `htons` gets. -/
def portNumber (options : Options) : UInt16 := UInt16.ofInt options.port

/-- The computations have the results that the options call for. -/
structure ExactComputations (options : Options) : Prop where
  reserved : ∃ size, reservedSize options = some size ∧
    (size.toNat : ℤ) = options.ratePerSecond * options.durationSeconds
  length : ((testLengthMs options).toNat : ℤ) = options.durationSeconds * 1000
  port : ((portNumber options).toNat : ℤ) = options.port

/-! ## What is accepted -/

/-- Every number is an `int`. -/
structure InRange (options : Options) : Prop where
  port : -2 ^ 31 ≤ options.port ∧ options.port < 2 ^ 31
  connections : -2 ^ 31 ≤ options.connections ∧ options.connections < 2 ^ 31
  ratePerSecond : -2 ^ 31 ≤ options.ratePerSecond ∧ options.ratePerSecond < 2 ^ 31
  durationSeconds : -2 ^ 31 ≤ options.durationSeconds ∧ options.durationSeconds < 2 ^ 31

theorem inRange_default : InRange .default := by
  constructor <;> simp only [Options.default] <;> omega

theorem stoi_range {text : Bytes} {n : ℤ} (h : stoi text = .ok n) : -2 ^ 31 ≤ n ∧ n < 2 ^ 31 := by
  unfold stoi at h
  extract_lets skipped negative unsigned digits number at h
  split at h
  · exact absurd h (by simp)
  · split at h
    · next hrange => exact Except.ok.inj h ▸ hrange
    · exact absurd h (by simp)

theorem exists_stoi_of_map {value : Bytes} {f : ℤ → Options} {options : Options}
    (h : (stoi value).map f = .ok options) :
    ∃ n, (-2 ^ 31 ≤ n ∧ n < 2 ^ 31) ∧ options = f n := by
  cases hn : stoi value with
  | error e => rw [hn] at h; exact absurd h (by simp [Except.map])
  | ok n =>
    rw [hn] at h
    exact ⟨n, stoi_range hn, (Except.ok.inj h).symm⟩

/-- No option takes a number that is no `int`. -/
theorem InRange.of_setOption {options options' : Options} (h : InRange options)
    {arg value : Bytes} {set : Options → Bytes → Except OptionError Options}
    (hset : setOption arg = some set) (hok : set options value = .ok options') :
    InRange options' := by
  unfold setOption at hset
  split at hset
  · obtain rfl := Option.some.inj hset
    exact Except.ok.inj hok ▸ ⟨h.port, h.connections, h.ratePerSecond, h.durationSeconds⟩
  split at hset
  · obtain rfl := Option.some.inj hset
    obtain ⟨n, hn, rfl⟩ := exists_stoi_of_map hok
    exact ⟨hn, h.connections, h.ratePerSecond, h.durationSeconds⟩
  split at hset
  · obtain rfl := Option.some.inj hset
    obtain ⟨n, hn, rfl⟩ := exists_stoi_of_map hok
    exact ⟨h.port, hn, h.ratePerSecond, h.durationSeconds⟩
  split at hset
  · obtain rfl := Option.some.inj hset
    obtain ⟨n, hn, rfl⟩ := exists_stoi_of_map hok
    exact ⟨h.port, h.connections, hn, h.durationSeconds⟩
  split at hset
  · obtain rfl := Option.some.inj hset
    obtain ⟨n, hn, rfl⟩ := exists_stoi_of_map hok
    exact ⟨h.port, h.connections, h.ratePerSecond, hn⟩
  · exact absurd hset (by simp)

theorem InRange.of_parseArgs {args : List Bytes} {options options' : Options} (h : InRange options)
    (hok : parseArgs args options = .ok options') : InRange options' := by
  induction args, options using parseArgs.induct with
  | case1 options => exact Except.ok.inj hok ▸ h
  | case2 options arg rest hnone =>
    rw [parseArgs, hnone] at hok
    exact absurd hok (by simp)
  | case3 options arg set hset =>
    rw [parseArgs, hset] at hok
    exact absurd hok (by simp)
  | case4 options arg set hset value rest e he =>
    rw [parseArgs, hset] at hok
    simp only [he] at hok
    exact absurd hok (by simp)
  | case5 options arg set hset value rest next hnext ih =>
    rw [parseArgs, hset] at hok
    simp only [hnext] at hok
    exact ih (h.of_setOption hset hnext) hok

/-- **What is accepted**: three positive numbers, all of them `int`s. -/
theorem accepted_of_parseOptions {args : List Bytes} {options : Options}
    (h : parseOptions args = .ok options) :
    InRange options ∧ 0 < options.connections ∧ 0 < options.ratePerSecond ∧
      0 < options.durationSeconds := by
  rw [parseOptions] at h
  split at h
  · exact absurd h (by simp)
  · next result hresult =>
    split at h
    · exact absurd h (by simp)
    split at h
    · exact absurd h (by simp)
    split at h
    · exact absurd h (by simp)
    obtain rfl := Except.ok.inj h
    exact ⟨inRange_default.of_parseArgs hresult, by omega, by omega, by omega⟩

/-! ## Exact computations -/

/-- A number that fits is converted as it is. -/
theorem toNat_ofInt_eq {n : ℤ} (hn : 0 ≤ n) (hlt : n < 2 ^ 64) :
    ((UInt64.ofInt n).toNat : ℤ) = n := by
  have hnat : (UInt64.ofInt n).toNat = (n % 2 ^ 64).toNat % 2 ^ 64 := UInt64.toNat_ofNat'
  omega

theorem portNumber_eq_iff (options : Options) :
    ((portNumber options).toNat : ℤ) = options.port ↔ 0 ≤ options.port ∧ options.port < 2 ^ 16 := by
  have hport : (portNumber options).toNat = (options.port % 2 ^ 16).toNat % 2 ^ 16 :=
    UInt16.toNat_ofNat'
  omega

theorem reservedSize_iff {options : Options} (hrate : 0 < options.ratePerSecond)
    (hduration : 0 < options.durationSeconds) :
    (∃ size, reservedSize options = some size ∧
      (size.toNat : ℤ) = options.ratePerSecond * options.durationSeconds) ↔
      options.ratePerSecond * options.durationSeconds < 2 ^ 31 := by
  have hpositive : 0 < options.ratePerSecond * options.durationSeconds :=
    Int.mul_pos hrate hduration
  rw [reservedSize, mulInt]
  split
  · next hrange =>
    refine iff_of_true ⟨_, rfl, ?_⟩ hrange.2
    rw [toNat_ofInt_eq hpositive.le (by omega)]
  · next hrange =>
    refine iff_of_false (fun h => ?_) fun hlt => hrange ⟨by omega, hlt⟩
    obtain ⟨size, hsize, -⟩ := h
    exact absurd hsize (by simp)

theorem testLengthMs_eq {options : Options} (h : InRange options)
    (hduration : 0 < options.durationSeconds) :
    ((testLengthMs options).toNat : ℤ) = options.durationSeconds * 1000 := by
  have hseconds := h.durationSeconds
  have hlength : testLengthMs options = UInt64.ofInt (options.durationSeconds * 1000) := by
    rw [UInt64.ofInt_mul]
    rfl
  rw [hlength, toNat_ofInt_eq (by omega) (by omega)]

/-- **The computations are exact for small tests on real ports, and only then.** -/
theorem exactComputations_iff {args : List Bytes} {options : Options}
    (h : parseOptions args = .ok options) :
    ExactComputations options ↔
      options.ratePerSecond * options.durationSeconds < 2 ^ 31 ∧
        0 ≤ options.port ∧ options.port < 2 ^ 16 := by
  obtain ⟨hrange, -, hrate, hduration⟩ := accepted_of_parseOptions h
  constructor
  · intro hexact
    exact ⟨(reservedSize_iff hrate hduration).mp hexact.reserved,
      (portNumber_eq_iff options).mp hexact.port⟩
  · rintro ⟨hproduct, hport⟩
    exact ⟨(reservedSize_iff hrate hduration).mpr hproduct, testLengthMs_eq hrange hduration,
      (portNumber_eq_iff options).mpr hport⟩

/-- The options of a test. -/
def testArgs (rate duration port : String) : List Bytes :=
  [ascii "--rate", ascii rate, ascii "--duration", ascii duration, ascii "--port", ascii port]

/-- Two accepted argument lists, one with a product that is no `int` and one with a port that
is another port for `htons`. -/
theorem inexact_options :
    (∃ options, parseOptions (testArgs "100000" "100000" "5000") = .ok options ∧
      reservedSize options = none) ∧
    ∃ options, parseOptions (testArgs "100" "10" "70000") = .ok options ∧
      options.port = 70000 ∧ portNumber options = 4464 ∧ ¬ ExactComputations options := by
  refine ⟨⟨⟨ascii "127.0.0.1", 5000, 100, 100000, 100000⟩, rfl, rfl⟩,
    ⟨ascii "127.0.0.1", 70000, 100, 100, 10⟩, rfl, rfl, rfl, fun h => ?_⟩
  exact absurd h.port (by decide)

/-- A test of a minute. -/
theorem exactComputations_minute :
    ∃ options, parseOptions (testArgs "1000" "60" "5000") = .ok options ∧
      ExactComputations options := by
  have haccepted : parseOptions (testArgs "1000" "60" "5000") =
      .ok ⟨ascii "127.0.0.1", 5000, 100, 1000, 60⟩ := rfl
  exact ⟨_, haccepted, (exactComputations_iff haccepted).mpr (by decide)⟩

end Loadgen
end RemoteDeviceConsole
