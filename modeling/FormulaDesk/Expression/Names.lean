import FormulaDesk.Expression.Engine
import FormulaDesk.Symbolic.Function

/-!
# Public names

What a name that is not in the dictionary stands for before it counts as a variable or an undefined
function: something that the engine makes public, or a function that is built into the language of
expressions.
-/

namespace FormulaDesk.Expression

open Symbolic (Term Amount Constant)

namespace Names

/-- Names with a value. -/
def constant? (name : String) : Option Term :=
  match name with
  | "pi" => some (.const .pi)
  | "E" => some (.const .euler)
  | "I" => some Term.imaginary
  | "oo" => some (.num (.infinite false))
  | "zoo" => some (.num .unsigned)
  | "nan" => some (.num .undefined)
  | "GoldenRatio" => some (.const .goldenRatio)
  | "EulerGamma" => some (.const .eulerGamma)
  | "Catalan" => some (.const .catalan)
  | "TribonacciConstant" => some (.const .tribonacci)
  | "true" => some (.truth true)
  | "false" => some (.truth false)
  | _ => none

/-- Names of objects that are expressions without being numbers. -/
def entities : List String :=
  ["EmptySet", "UniversalSet", "Reals", "Rationals", "Integers", "Naturals", "Naturals0",
    "Complexes", "Id", "ord0", "EmptySequence"]

/-- The elementary functions. -/
def elementary : List String :=
  ["sqrt", "sin", "cos", "tan", "asin", "acos", "atan", "sinh", "cosh", "tanh", "log", "exp"]

/-- Functions that stay as calls, with the fewest and most arguments that they take. -/
def plainCalls : List (String × Nat × Nat) :=
  (["sec", "csc", "cot", "asec", "acsc", "acot", "sinc", "sech", "csch", "coth", "asinh", "acosh",
    "atanh", "acoth", "asech", "acsch", "re", "im", "arg", "conjugate", "frac", "gamma",
    "loggamma", "digamma", "trigamma", "erf", "erfc", "erfi", "erfinv", "erfcinv", "subfactorial",
    "Ei", "E1", "li", "Li", "Si", "Ci", "Shi", "Chi", "fresnels", "fresnelc", "dirichlet_eta",
    "riemann_xi", "elliptic_k", "airyai", "airybi", "airyaiprime", "airybiprime", "catalan",
    "lucas", "motzkin", "partition", "primepi", "totient", "reduced_totient", "mobius", "primenu",
    "primeomega", "carmichael", "transpose", "adjoint", "polar_lift", "exp_polar", "andre",
    "Determinant", "Trace"].map fun name => (name, 1, 1))
  ++ (["atan2", "binomial", "Mod", "polygamma", "besselj", "bessely", "besseli", "besselk",
    "hankel1", "hankel2", "jn", "yn", "hn1", "hn2", "polylog", "lowergamma", "uppergamma",
    "RisingFactorial", "FallingFactorial", "rf", "ff", "KroneckerDelta", "legendre", "hermite",
    "hermite_prob", "chebyshevt", "chebyshevu", "chebyshevt_root", "chebyshevu_root", "erf2",
    "expint", "erf2inv", "legendre_symbol", "jacobi_symbol", "kronecker_symbol", "elliptic_f",
    "Rem", "periodic_argument", "principal_branch", "multigamma", "real_root"].map
      fun name => (name, 2, 2))
  ++ (["LambertW", "Heaviside", "DiracDelta", "zeta", "harmonic", "bernoulli", "euler",
    "fibonacci", "tribonacci", "genocchi", "elliptic_e", "stieltjes", "divisor_sigma",
    "beta", "laguerre"].map fun name => (name, 1, 2))
  ++ [("bell", 1, 3), ("elliptic_pi", 2, 3), ("lerchphi", 3, 3), ("gegenbauer", 3, 3),
    ("assoc_legendre", 3, 3), ("assoc_laguerre", 3, 3), ("marcumq", 3, 3), ("mathieus", 3, 3),
    ("mathieuc", 3, 3), ("mathieusprime", 3, 3), ("mathieucprime", 3, 3), ("jacobi", 4, 4),
    ("jacobi_normalized", 4, 4), ("Ynm", 4, 4), ("Ynm_c", 4, 4), ("Znm", 4, 4), ("betainc", 4, 4),
    ("betainc_regularized", 4, 4), ("SingularityFunction", 3, 3), ("appellf1", 6, 6)]

/-- Functions that give back their first argument in another form. -/
def formChangers : List String :=
  ["simplify", "expand", "factor", "cancel", "together", "apart", "trigsimp", "exptrigsimp",
    "powsimp", "powdenest", "radsimp", "ratsimp", "combsimp", "gammasimp", "logcombine",
    "nsimplify", "signsimp", "sqrtdenest", "collect_const", "besselsimp", "kroneckersimp",
    "hyperexpand", "expand_mul", "expand_log", "expand_func", "expand_trig", "expand_complex",
    "expand_multinomial", "expand_power_base", "expand_power_exp", "factor_terms", "gcd_terms",
    "factor_nc", "nfloat", "N", "S", "sympify", "UnevaluatedExpr", "piecewise_fold", "polarify",
    "unpolarify", "refine", "collect", "rcollect", "horner", "sqf_part", "simplify_logic",
    "to_cnf", "to_dnf", "to_nnf", "bool_map", "numer", "cse"]

/-- Functions whose result is an expression that is not worked out here. -/
def deferred : List String :=
  ["integrate", "Integral", "limit", "Limit", "gruntz", "series", "Order", "O", "Sum", "Product",
    "summation", "product", "Subs", "residue", "Piecewise", "fourier_series", "fps",
    "laplace_transform", "gcd", "lcm", "content", "primitive", "degree", "LC", "LM", "LT",
    "prime", "nextprime", "prevprime", "primorial", "npartitions", "count_ops", "denom",
    "discriminant", "resultant", "Poly", "Point", "Point2D", "Point3D", "Circle", "Interval",
    "FiniteSet", "Tuple", "AccumBounds", "Range"]

/-- Functions whose result is no expression. -/
def nonExpressions : List String :=
  ["solve", "roots", "factor_list", "sqf_list", "factorint", "divisors", "primefactors",
    "isprime", "is_perfect", "latex", "pretty", "srepr", "sstr", "sstrrepr", "pycode", "ccode",
    "fcode", "jscode", "rcode", "octave_code", "rust_code", "mathematica_code", "julia_code",
    "cxxcode", "glsl_code", "maple_code", "mathml", "python", "dotprint", "lambdify", "Matrix",
    "SparseMatrix", "MutableMatrix", "eye", "zeros", "ones", "fraction", "primerange",
    "linsolve", "nroots", "real_roots", "all_roots", "intervals", "perfect_power", "repr",
    "ascii", "hash", "id", "callable", "dir", "vars", "globals", "locals", "format", "isinstance",
    "issubclass", "hasattr", "posify", "numbered_symbols", "ask", "satisfiable", "print_latex", "pprint",
    "pretty_print", "print_python", "print_ccode", "print_tree", "print_mathml", "Dict"]

/-- Those of them that also answer without an argument. -/
def surveys : List String := ["dir", "vars", "globals", "locals"]

/-- What else is public in the algebra system. -/
def otherPublic : List String :=
  ["SympifyError", "cacheit", "Basic", "Atom", "preorder_traversal", "Expr", "AtomicExpr",
    "Wild", "Dummy", "symbols", "var", "Number", "Float", "Rational", "Integer", "NumberSymbol",
    "RealNumber", "igcd", "ilcm", "seterr", "AlgebraicNumber", "comp", "mod_inverse", "Pow",
    "integer_nthroot", "integer_log", "trailing", "Mul", "prod", "Add", "Rel", "Eq", "Ne", "Lt",
    "Le", "Gt", "Ge", "Equality", "GreaterThan", "LessThan", "Unequality", "StrictGreaterThan",
    "StrictLessThan", "vectorize", "Lambda", "WildFunction", "Derivative", "diff",
    "FunctionClass", "Function", "PoleError", "arity", "PrecisionExhausted", "evalf",
    "evaluate", "bottom_up", "use", "postorder_traversal", "default_sort_key", "ordered",
    "num_digits", "And", "Or", "Not", "Xor", "Nand", "Nor", "Implies", "Equivalent", "ITE",
    "POSform", "SOPform", "AppliedPredicate", "Predicate", "AssumptionsContext", "assuming", "Q",
    "register_handler", "remove_handler", "PurePoly", "poly_from_expr",
    "parallel_poly_from_expr", "total_degree", "degree_list", "pdiv", "prem", "pquo", "pexquo",
    "div", "rem", "quo", "exquo", "half_gcdex", "gcdex", "invert", "subresultants", "cofactors",
    "gcd_list", "lcm_list", "terms_gcd", "trunc", "monic", "compose", "decompose", "sturm",
    "gff_list", "gff", "sqf_norm", "sqf", "refine_root", "count_roots", "ground_roots",
    "nth_power_roots_poly", "reduced", "groebner", "is_zero_dimensional", "GroebnerBasis", "poly",
    "symmetrize", "interpolate", "rational_interpolate", "viete", "BasePolynomialError",
    "ExactQuotientFailed", "PolynomialDivisionFailed", "OperationNotSupported",
    "HeuristicGCDFailed", "HomomorphismFailed", "IsomorphismFailed", "ExtraneousFactors",
    "EvaluationFailed", "RefinementFailed", "CoercionFailed", "NotInvertible", "NotReversible",
    "NotAlgebraic", "DomainError", "PolynomialError", "UnificationFailed", "GeneratorsError",
    "GeneratorsNeeded", "ComputationFailed", "UnivariatePolynomialError",
    "MultivariatePolynomialError", "PolificationFailed", "OptionError", "FlagError", "minpoly",
    "minimal_polynomial", "primitive_element", "field_isomorphism", "to_number_field", "isolate",
    "round_two", "prime_decomp", "prime_valuation", "galois_group", "itermonomials", "Monomial",
    "lex", "grlex", "grevlex", "ilex", "igrlex", "igrevlex", "CRootOf", "rootof", "RootOf",
    "ComplexRootOf", "RootSum", "Domain", "FiniteField", "IntegerRing", "RationalField",
    "RealField", "ComplexField", "PythonFiniteField", "GMPYFiniteField", "PythonIntegerRing",
    "GMPYIntegerRing", "PythonRational", "GMPYRationalField", "AlgebraicField", "PolynomialRing",
    "FractionField", "ExpressionDomain", "FF_python", "FF_gmpy", "ZZ_python", "ZZ_gmpy",
    "QQ_python", "QQ_gmpy", "GF", "FF", "ZZ", "QQ", "ZZ_I", "QQ_I", "RR", "CC", "EX", "EXRAW",
    "construct_domain", "swinnerton_dyer_poly", "cyclotomic_poly", "symmetric_poly",
    "random_poly", "interpolating_poly", "jacobi_poly", "chebyshevt_poly", "chebyshevu_poly",
    "hermite_poly", "hermite_prob_poly", "legendre_poly", "laguerre_poly", "apart_list",
    "assemble_partfrac_list", "Options", "ring", "xring", "vring", "sring", "field", "xfield",
    "vfield", "sfield", "approximants", "SeqPer", "SeqFormula", "sequence", "SeqAdd", "SeqMul",
    "difference_delta", "limit_seq", "Min", "Max", "root", "cbrt", "ln", "sign", "Abs", "floor",
    "ceiling", "factorial", "factorial2", "unbranched_argument", "piecewise_exclusive", "Eijk",
    "LeviCivita", "bspline_basis", "bspline_basis_set", "interpolating_spline", "jn_zeros",
    "hyper", "meijerg", "randprime", "Sieve", "cycle_length", "composite", "compositepi",
    "proper_divisors", "multiplicity", "pollard_pm1", "pollard_rho", "divisor_count",
    "proper_divisor_count", "factorrat", "mersenne_prime_exponent", "is_mersenne_prime",
    "is_abundant", "is_deficient", "is_amicable", "is_carmichael", "abundance",
    "is_primitive_root", "is_quad_residue", "n_order", "sqrt_mod", "quadratic_residues",
    "primitive_root", "sqrt_mod_iter", "nthroot_mod", "is_nthpow_residue", "discrete_log",
    "quadratic_congruence", "polynomial_congruence", "binomial_coefficients",
    "binomial_coefficients_list", "multinomial_coefficients", "continued_fraction_periodic",
    "continued_fraction_iterator", "continued_fraction_reduce",
    "continued_fraction_convergents", "continued_fraction", "egyptian_fraction", "fft", "ifft",
    "ntt", "intt", "fwht", "ifwht", "mobius_transform", "inverse_mobius_transform",
    "convolution", "covering_product", "intersecting_product", "hypersimp", "hypersimilar",
    "separatevars", "fu", "epath", "EPath", "ratsimpmodprime", "Set", "Union", "ProductSet",
    "Intersection", "imageset", "DisjointUnion", "Complement", "SymmetricDifference", "ImageSet",
    "ComplexRegion", "Contains", "ConditionSet", "Ordinal", "OmegaPower", "PowerSet",
    "solve_linear_system", "solve_linear_system_LU", "solve_undetermined_coeffs", "nsolve",
    "solve_linear", "checksol", "det_quick", "inv_quick", "check_assumptions",
    "failing_assumptions", "diophantine", "rsolve", "rsolve_poly", "rsolve_ratio",
    "rsolve_hyper", "checkodesol", "classify_ode", "dsolve", "homogeneous_order",
    "solve_poly_system", "factor_system", "solve_triangulated", "pde_separate",
    "pde_separate_add", "pde_separate_mul", "pdsolve", "classify_pde", "checkpdesol",
    "ode_order", "reduce_inequalities", "reduce_abs_inequality", "reduce_abs_inequalities",
    "solve_poly_inequality", "solve_rational_inequalities", "solve_univariate_inequality",
    "decompogen", "solveset", "linear_eq_to_matrix", "nonlinsolve", "substitution",
    "ShapeError", "NonSquareMatrixError", "GramSchmidt", "casoratian", "diag", "hessian",
    "jordan_cell", "list2numpy", "matrix2numpy", "matrix_multiply_elementwise", "randMatrix",
    "rot_axis1", "rot_axis2", "rot_axis3", "symarray", "wronskian", "MutableDenseMatrix",
    "DeferredVector", "MatrixBase", "MutableSparseMatrix", "banded", "ImmutableDenseMatrix",
    "ImmutableSparseMatrix", "ImmutableMatrix", "MatrixSlice", "BlockDiagMatrix", "BlockMatrix",
    "FunctionMatrix", "Identity", "Inverse", "MatAdd", "MatMul", "MatPow", "MatrixExpr",
    "MatrixSymbol", "Transpose", "ZeroMatrix", "OneMatrix", "blockcut", "block_collapse",
    "matrix_symbols", "Adjoint", "hadamard_product", "HadamardProduct", "HadamardPower", "det",
    "diagonalize_vector", "DiagMatrix", "DiagonalMatrix", "DiagonalOf", "trace", "DotProduct",
    "kronecker_product", "KroneckerProduct", "PermutationMatrix", "MatrixPermute", "MatrixSet",
    "Permanent", "per", "rot_ccw_axis1", "rot_ccw_axis2", "rot_ccw_axis3", "rot_givens", "Line",
    "Ray", "Segment", "Line2D", "Segment2D", "Ray2D", "Line3D", "Segment3D", "Ray3D", "Plane",
    "Ellipse", "Polygon", "RegularPolygon", "Triangle", "rad", "deg", "are_similar", "centroid",
    "convex_hull", "idiff", "intersection", "closest_points", "farthest_points",
    "GeometryError", "Curve", "Parabola", "flatten", "group", "take", "subsets", "variations",
    "cartes", "capture", "dict_merge", "prefixes", "postfixes", "sift", "topological_sort",
    "unflatten", "has_dups", "has_variety", "reshape", "rotations", "filldedent", "threaded",
    "xthreaded", "public", "memoize_property", "timed", "line_integrate", "mellin_transform",
    "inverse_mellin_transform", "MellinTransform", "InverseMellinTransform",
    "laplace_correspondence", "laplace_initial_conds", "inverse_laplace_transform",
    "LaplaceTransform", "InverseLaplaceTransform", "fourier_transform",
    "inverse_fourier_transform", "FourierTransform", "InverseFourierTransform",
    "sine_transform", "inverse_sine_transform", "SineTransform", "InverseSineTransform",
    "cosine_transform", "inverse_cosine_transform", "CosineTransform",
    "InverseCosineTransform", "hankel_transform", "inverse_hankel_transform",
    "HankelTransform", "InverseHankelTransform", "singularityintegrate", "IndexedBase", "Idx",
    "Indexed", "get_contraction_structure", "get_indices", "shape", "MutableDenseNDimArray",
    "ImmutableDenseNDimArray", "MutableSparseNDimArray", "ImmutableSparseNDimArray",
    "NDimArray", "tensorproduct", "tensorcontraction", "tensordiagonal", "derive_by_array",
    "permutedims", "Array", "DenseNDimArray", "SparseNDimArray", "parse_expr",
    "euler_equations", "singularities", "is_increasing", "is_strictly_increasing",
    "is_decreasing", "is_strictly_decreasing", "is_monotonic", "finite_diff_weights",
    "apply_finite_diff", "differentiate_finite", "periodicity", "not_empty_in", "is_convex",
    "stationary_points", "minimum", "maximum", "Quaternion", "pager_print",
    "pprint_use_unicode", "pprint_try_use_unicode", "multiline_latex", "smtlib_code",
    "print_glsl", "print_fcode", "print_rcode", "print_jscode", "print_gtk", "preview",
    "StrPrinter", "TableForm", "print_maple_code", "plot", "textplot", "plot_implicit",
    "plot_parametric", "init_session", "init_printing", "test", "doctest", "source", "Symbol"]

/-- Functions that are built into the language. -/
def builtins : List String :=
  ["abs", "pow", "__build_class__", "__import__", "aiter", "anext", "breakpoint", "compile", "delattr",
    "divmod", "eval", "exec", "getattr", "input", "max", "min", "next", "open", "print", "round",
    "setattr", "sum", "len", "sorted", "all", "any", "iter", "ord", "chr", "bin", "hex", "oct"]

/-- Whether a public name can be called, or is a class. -/
def isCallable (name : String) : Bool :=
  elementary.contains name || (plainCalls.lookup name).isSome || formChangers.contains name
    || deferred.contains name || nonExpressions.contains name || otherPublic.contains name
    || builtins.contains name

def isPublic (name : String) : Bool :=
  (constant? name).isSome || entities.contains name || isCallable name

/-- Whether a name is more than a variable. -/
def isKnown (given : Dictionary) (name : String) : Bool :=
  (given.lookup name).isSome || isPublic name

end Names

end FormulaDesk.Expression
