import EngineHost.Metrics.Basic

/-!
# Text exposition of metrics

Metrics as lines of text: families in the order of their names, each with its help and type, and
samples in the order of their label values. A family without samples is left out.
-/

namespace EngineHost.Metrics

def number (x : Binary64) : Bytes := if x.isZero then "0" else Layout.general x

def labelValue (s : Bytes) : Bytes :=
  s.flatMap fun b =>
    if b = 92 then "\\\\" else if b = 34 then "\\\"" else if b = 10 then "\\n" else [b]

def labels (names : List String) (values : List Bytes) : Bytes :=
  let pairs := (names.zip values).map fun (n, v) =>
    Bytes.ofString n ++ "=\"" ++ labelValue v ++ "\""
  "\x7b" ++ Bytes.join "," pairs ++ "\x7d"

def sample (name : Bytes) (names : List String) (values : List Bytes) (text : Bytes) : Bytes :=
  name ++ labels names values ++ " " ++ text ++ "\n"

/-- The help and type lines of a family in front of its samples. -/
def family (name help type : String) (samples : List Bytes) : Bytes :=
  if samples.isEmpty then []
  else Bytes.ofString "# HELP " ++ name ++ " " ++ help ++ "\n# TYPE " ++ name ++ " " ++ type ++
    "\n" ++ samples.flatten

/-- The samples of a histogram: cumulative bucket counts, the sum and the count. -/
def histogram (name : String) (names : List String) (values : List Bytes) (h : Histogram) :
    Bytes :=
  let withBound := names ++ ["le"]
  let cumulative := (List.range bounds.length).map fun i => (h.buckets.take (i + 1)).sum
  let buckets := (bounds.zip cumulative).flatMap fun (b, n) =>
    sample (Bytes.ofString name ++ "_bucket") withBound (values ++ [number b]) (Bytes.ofNat n)
  let all := sample (Bytes.ofString name ++ "_bucket") withBound (values ++ [Bytes.ofString "+Inf"])
    (Bytes.ofNat h.count)
  buckets ++ all ++ sample (Bytes.ofString name ++ "_sum") names values (number h.sum) ++
    sample (Bytes.ofString name ++ "_count") names values (Bytes.ofNat h.count)

def numbers {α : Type} (name : String) (names : List String) (value : α → Binary64)
    (t : Table α) : List Bytes :=
  t.sorted.map fun (values, v) => sample (Bytes.ofString name) names values (number (value v))

def Registry.text (m : Registry) : Bytes :=
  family "hvm_evaluation_duration_seconds" "Reduction time reported by the engine." "histogram"
    (m.durations.sorted.map fun (values, h) =>
      histogram "hvm_evaluation_duration_seconds" ["runtime"] values h) ++
  family "hvm_evaluations_total" "Evaluations by runtime and outcome." "counter"
    (numbers "hvm_evaluations_total" ["runtime", "status"] Counter.value m.evaluations) ++
  family "hvm_interactions_total" "Interactions performed by the engine." "counter"
    (numbers "hvm_interactions_total" ["runtime"] Counter.value m.interactions) ++
  family "hvm_native_resource_events_total"
    "Native allocations handed to the host, released, and released by the finalizer." "counter"
    (numbers "hvm_native_resource_events_total" ["event", "kind"] Counter.value m.events) ++
  family "hvm_native_resources_live" "Native allocations currently owned by the host." "gauge"
    (numbers "hvm_native_resources_live" ["kind"] id m.live)

end EngineHost.Metrics
