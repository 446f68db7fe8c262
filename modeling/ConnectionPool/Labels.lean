import ConnectionPool.DataSource
/-! Type codes are told apart by labels, numbered in the order in which the codes first appear. -/
namespace ConnectionPool

abbrev Labels := List TypeCode

def Labels.label (seen : Labels) (code : TypeCode) : Nat × Labels :=
  match seen.idxOf? code with
  | some n => (n,seen)
  | none => (seen.length,seen ++ [code])

end ConnectionPool
