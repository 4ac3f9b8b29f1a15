import EngineHost.Text.Bytes

/-!
# Texts of the sample programs

Nets in the engine's notation, with references to parameters where a program has a size.
-/

namespace EngineHost.Sample

def ofLines (lines : List String) : Bytes := lines.flatMap fun l => Bytes.ofString l ++ "\n"

/-- Sorts `2 ^ Depth` numbers with a bitonic network and adds them up. -/
def bitonicSort : Bytes := ofLines [
  "@down = (?(((a (* a)) @down__C0) (b (c d))) (c (b d)))",
  "",
  "@down__C0 = (\x7ba e\x7d ((c g) (\x7bb f\x7d (d h))))",
  "  &!@flow ~ (a (b (c d)))",
  "  &!@flow ~ (e (f (g h)))",
  "",
  "@flow = (?(((a (* a)) @flow__C0) (b (c d))) (c (b d)))",
  "",
  "@flow__C0 = (\x7b$([+1] a) c\x7d ((e f) (\x7bb d\x7d h)))",
  "  & @down ~ (a (b (g h)))",
  "  & @warp ~ (c (d (e (f g))))",
  "",
  "@gen = (a b)",
  "  & @gen__bend0 ~ (a (0 b))",
  "",
  "@gen__bend0 = (\x7b?(((* (a a)) @gen__bend0__C0) (b c)) b\x7d c)",
  "",
  "@gen__bend0__C0 = (* (\x7b$([:-1] a) $([:-1] d)\x7d (\x7b$([*2] $([+1] b)) $([*2] e)\x7d (c f))))",
  "  &!@gen__bend0 ~ (a (b c))",
  "  &!@gen__bend0 ~ (d (e f))",
  "",
  "@main = a",
  "  & @sum ~ (\x7b\x7b.params.Depth\x7d\x7d (@main__C1 a))",
  "",
  "@main__C0 = a",
  "  & @gen ~ (\x7b\x7b.params.Depth\x7d\x7d a)",
  "",
  "@main__C1 = a",
  "  & @sort ~ (\x7b\x7b.params.Depth\x7d\x7d (0 (@main__C0 a)))",
  "",
  "@sort = (?(((a (* a)) @sort__C0) (b (c d))) (c (b d)))",
  "",
  "@sort__C0 = (\x7b$([+1] a) \x7bc f\x7d\x7d ((d g) (b i)))",
  "  & @flow ~ (a (b ((e h) i)))",
  "  &!@sort ~ (c (0 (d e)))",
  "  &!@sort ~ (f (1 (g h)))",
  "",
  "@sum = (?(((a a) @sum__C0) b) b)",
  "",
  "@sum__C0 = (\x7ba c\x7d ((b d) f))",
  "  &!@sum ~ (a (b $([+] $(e f))))",
  "  &!@sum ~ (c (d e))",
  "",
  "@swap = (?((@swap__C0 @swap__C1) (a (b c))) (b (a c)))",
  "",
  "@swap__C0 = (b (a (a b)))",
  "",
  "@swap__C1 = (* (a (b (a b))))",
  "",
  "@warp = (?((@warp__C0 @warp__C1) (a (b (c d)))) (c (b (a d))))",
  "",
  "@warp__C0 = (\x7ba e\x7d (\x7b$([>] $(a b)) d\x7d ($([+] $(b c)) f)))",
  "  & @swap ~ (c (d (e f)))",
  "",
  "@warp__C1 = (\x7ba f\x7d ((d i) ((c h) (\x7bb g\x7d ((e j) (k l))))))",
  "  &!@warp ~ (f (g (h (i (j l)))))",
  "  &!@warp ~ (a (b (c (d (e k)))))"]

def faulty : Bytes := ofLines [
  "this is faulty"]

/-- The Fibonacci number of `N`, by iteration. -/
def fibonacci : Bytes := ofLines [
  "@fib_iterative = a",
  "  & @fib_iterative__bend0 ~ (0 (1 a))",
  "",
  "@fib_iterative__bend0 = (b (c (\x7b$([!0] ?(((a (* (* a))) @fib_iterative__bend0__C0) (b (c (d e))))) d\x7d e)))",
  "",
  "@fib_iterative__bend0__C0 = (* ($([+] $(b c)) (\x7ba b\x7d ($([:-1] d) e))))",
  "  & @fib_iterative__bend0 ~ (a (c (d e)))",
  "",
  "@fib_recursive = (?((0 @fib_recursive__C1) a) a)",
  "",
  "@fib_recursive__C0 = (\x7ba $([+1] b)\x7d d)",
  "  &!@fib_recursive ~ (a $([+] $(c d)))",
  "  &!@fib_recursive ~ (b c)",
  "",
  "@fib_recursive__C1 = (?((1 @fib_recursive__C0) a) a)",
  "",
  "@main = a",
  "  & @fib_iterative ~ (\x7b\x7b.params.N\x7d\x7d a)"]

/-- Counts down from `Loop` in `2 ^ Depth` parallel loops. -/
def stress : Bytes := ofLines [
  "@fun = (?((@fun__C0 @fun__C1) a) a)",
  "",
  "@fun__C0 = a",
  "  & @loop ~ (\x7b\x7b.params.Loop\x7d\x7d a)",
  "",
  "@fun__C1 = (\x7ba b\x7d d)",
  "  &! @fun ~ (a $([+] $(c d)))",
  "  &! @fun ~ (b c)",
  "",
  "@loop = (?((0 @loop__C0) a) a)",
  "",
  "@loop__C0 = a",
  "  & @loop ~ a",
  "",
  "@main = a",
  "  & @fun ~ (\x7b\x7b.params.Depth\x7d\x7d a)"]

end EngineHost.Sample
