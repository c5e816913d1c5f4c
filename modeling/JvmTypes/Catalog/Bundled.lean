import JvmTypes.Catalog

/-!
# The bundled catalog

The classes that are known when no other catalog is chosen.
-/

namespace JvmTypes.Catalog

/-- The bundled classes. Nested classes have a dollar sign in their names. -/
def bundled : Catalog := ⟨[
  ⟨"java.lang.Object", []⟩,
  ⟨"java.lang.String", []⟩,
  ⟨"java.lang.CharSequence", []⟩,
  ⟨"java.lang.Number", []⟩,
  ⟨"java.lang.Integer", []⟩,
  ⟨"java.lang.Long", []⟩,
  ⟨"java.lang.Short", []⟩,
  ⟨"java.lang.Byte", []⟩,
  ⟨"java.lang.Character", []⟩,
  ⟨"java.lang.Boolean", []⟩,
  ⟨"java.lang.Float", []⟩,
  ⟨"java.lang.Double", []⟩,
  ⟨"java.lang.Void", []⟩,
  ⟨"java.lang.Enum", ["E"]⟩,
  ⟨"java.lang.Iterable", ["T"]⟩,
  ⟨"java.lang.Comparable", ["T"]⟩,
  ⟨"java.lang.Class", ["T"]⟩,
  ⟨"java.lang.ThreadLocal", ["T"]⟩,
  ⟨"java.lang.Thread", []⟩,
  ⟨"java.lang.Thread$State", []⟩,
  ⟨"java.lang.Runnable", []⟩,
  ⟨"java.lang.Cloneable", []⟩,
  ⟨"java.lang.Throwable", []⟩,
  ⟨"java.lang.Exception", []⟩,
  ⟨"java.lang.RuntimeException", []⟩,
  ⟨"java.lang.StringBuilder", []⟩,
  ⟨"java.io.Serializable", []⟩,
  ⟨"java.math.BigDecimal", []⟩,
  ⟨"java.math.BigInteger", []⟩,
  ⟨"java.util.Collection", ["E"]⟩,
  ⟨"java.util.List", ["E"]⟩,
  ⟨"java.util.ArrayList", ["E"]⟩,
  ⟨"java.util.LinkedList", ["E"]⟩,
  ⟨"java.util.Set", ["E"]⟩,
  ⟨"java.util.HashSet", ["E"]⟩,
  ⟨"java.util.SortedSet", ["E"]⟩,
  ⟨"java.util.TreeSet", ["E"]⟩,
  ⟨"java.util.Queue", ["E"]⟩,
  ⟨"java.util.Deque", ["E"]⟩,
  ⟨"java.util.Iterator", ["E"]⟩,
  ⟨"java.util.Map", ["K", "V"]⟩,
  ⟨"java.util.Map$Entry", ["K", "V"]⟩,
  ⟨"java.util.HashMap", ["K", "V"]⟩,
  ⟨"java.util.SortedMap", ["K", "V"]⟩,
  ⟨"java.util.TreeMap", ["K", "V"]⟩,
  ⟨"java.util.Optional", ["T"]⟩,
  ⟨"java.util.Comparator", ["T"]⟩,
  ⟨"java.util.Date", []⟩,
  ⟨"java.util.UUID", []⟩,
  ⟨"java.util.function.Function", ["T", "R"]⟩,
  ⟨"java.util.function.BiFunction", ["T", "U", "R"]⟩,
  ⟨"java.util.function.Supplier", ["T"]⟩,
  ⟨"java.util.function.Consumer", ["T"]⟩,
  ⟨"java.util.function.Predicate", ["T"]⟩]⟩

end JvmTypes.Catalog
